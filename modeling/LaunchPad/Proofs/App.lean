import LaunchPad.App
import LaunchPad.Lib.Bucket
import LaunchPad.Proofs.Idempotency
import LaunchPad.Proofs.Slots

/-!
# In front of the handlers

A request that the load shedder or the rate limiter answers goes no further: it takes no step in the
table of idempotency keys, and no handler begins for it. The tokens are what the requests that the
load shedders let through leave of them, each asking once. What the table and the handlers do is
what they would do with nothing in front.
-/

namespace LaunchPad

open Feed Interleave

variable {ι τ β S : Type} [DecidableEq ι]

namespace AppCall

/-- The instance a request comes in at. -/
def requestedAt : AppCall ι β → Option ι
  | .request i .. => some i
  | _ => none

/-- What a call does where the tokens are kept. -/
def limit (app : ι → AppOptions S) (expire : String → ℚ → S → S) :
    AppCall ι β → S → Option RateLimiterOutcome × S
  | .request i _ _ onConsume nowMs dateNow req, s =>
    (limitRate (app i) onConsume ⟨req.client, nowMs, dateNow⟩ s).map some id
  | .expire key nowMs, s => (none, expire key nowMs s)
  | _, s => (none, s)

end AppCall

/-- Both middlewares in front have let the request through. -/
def Front.LetThrough (w : Front ι τ S) (t : τ) : Prop :=
  t ∈ w.admitted ∧ ∃ headers, (t, some (.next headers)) ∈ w.decided

/-! ## The middlewares in front -/

/-- How far a call has come. -/
inductive FrontPhase
  | arriving
  | admitted
  | through (headers : Option RateLimitHeaders)
  | ended (answer : FrontAnswer)

namespace FrontPhase

def afterShed : ShedderOutcome → FrontPhase
  | .next => .admitted
  | outcome => .ended (.shed outcome)

def afterLimit : RateLimiterOutcome → FrontPhase
  | .next headers => .through headers
  | outcome => .ended (.limited outcome)

/-- The load shedder has let it through. -/
def IsAdmitted : FrontPhase → Prop
  | .admitted => True
  | .through _ => True
  | .ended (.limited _) => True
  | _ => False

end FrontPhase

section Front

variable (app : ι → AppOptions S) (expire : String → ℚ → S → S) (tokens : S)
  (calls : τ → AppCall ι β)

/-- A move of a call in front. -/
inductive FrontStep (t : τ) : FrontPhase → Front ι τ S → Front ι τ S → FrontPhase → Prop
  | arrive {i : ι} {env : RequestEnv β} {retries : ℕ} {onConsume : Fate} {nowMs dateNow : ℚ}
      {req : ApiRequest} (w : Front ι τ S)
      (hcall : calls t = .request i env retries onConsume nowMs dateNow req) :
      FrontStep t .arriving w (w.arrive t i req).2 (.afterShed (w.arrive t i req).1)
  | ask {i : ι} {env : RequestEnv β} {retries : ℕ} {onConsume : Fate} {nowMs dateNow : ℚ}
      {req : ApiRequest} (w : Front ι τ S)
      (hcall : calls t = .request i env retries onConsume nowMs dateNow req) :
      FrontStep t .admitted w (w.ask t (app i) onConsume ⟨req.client, nowMs, dateNow⟩).2
        (.afterLimit (w.ask t (app i) onConsume ⟨req.client, nowMs, dateNow⟩).1)
  | emit {i : ι} {response : ℕ} {note : AdmittedResponse → AdmittedResponse} (w : Front ι τ S)
      (hcall : (calls t).requestedAt = none) (hreleased : ∀ r, (note r).released = r.released)
      (hpending : ∀ r, (note r).pending = false) :
      FrontStep t .arriving w (w.emit i response note) (.ended .heard)
  | expire {key : String} {nowMs : ℚ} (w : Front ι τ S) (hcall : calls t = .expire key nowMs) :
      FrontStep t .arriving w (w.expire t expire key nowMs) (.ended .heard)

/-- The phase a call is in before it starts. -/
def startPhase (t : τ) : FrontPhase :=
  match calls t with
  | .tick _ => .through none
  | _ => .arriving

/-- What a call has ended with in front is what its phase says. -/
inductive FrontEnds : Except Empty (FrontAnswer ⊕ Option RateLimitHeaders) → FrontPhase → Prop
  | shed (outcome : ShedderOutcome) (h : outcome ≠ .next) :
      FrontEnds (.ok (.inl (.shed outcome))) (.ended (.shed outcome))
  | limited (outcome : RateLimiterOutcome) (h : ∀ headers, outcome ≠ .next headers) :
      FrontEnds (.ok (.inl (.limited outcome))) (.afterLimit outcome)
  | heard : FrontEnds (.ok (.inl .heard)) (.ended .heard)
  | through (headers : Option RateLimitHeaders) :
      FrontEnds (.ok (.inr headers)) (.afterLimit (.next headers))

variable {app expire tokens calls}

/-- A call that is one move in front, which no middleware answers. -/
theorem follows_heard {t : τ} (f : Front ι τ S → Front ι τ S)
    (hstep : ∀ w, FrontStep app expire calls t .arriving w (f w) (.ended .heard)) :
    Follows (FrontStep app expire calls t) FrontEnds
      (do Async.await (Sync.modify f); pure (.inl .heard)) .arriving := by
  refine Follows.await_bind (K := fun _ s => s = .ended .heard) (fun w r w' hw => ?_) ?_ ?_
  · obtain ⟨rfl, rfl⟩ := Prod.mk.inj (Option.some.inj hw)
    exact ⟨_, hstep w, rfl⟩
  · rintro - s rfl
    exact Follows.pure .heard
  · exact fun e => e.elim

theorem follows_front (t : τ) : Follows (FrontStep app expire calls t) FrontEnds
    ((calls t).front app expire t) (startPhase calls t) := by
  unfold startPhase
  rcases hcall : calls t with ⟨i, env, retries, onConsume, nowMs, dateNow, req⟩
    | ⟨i, response⟩ | ⟨i, response⟩ | ⟨key, nowMs⟩ | ms
  · refine Follows.await_bind (K := fun r s => ∃ o, r = .ok o ∧ s = .afterShed o)
      (fun w r w' hw => ?_) ?_ ?_
    · obtain ⟨rfl, rfl⟩ := Prod.mk.inj (Option.some.inj hw)
      exact ⟨_, .arrive w hcall, _, rfl, rfl⟩
    · rintro o s ⟨o', ho, rfl⟩
      obtain rfl := Except.ok.inj ho
      cases o with
      | overloaded => exact Follows.pure (.shed _ (by simp))
      | next =>
        refine Follows.await_bind (K := fun r s => ∃ o, r = .ok o ∧ s = .afterLimit o)
          (fun w r w' hw => ?_) ?_ ?_
        · obtain ⟨rfl, rfl⟩ := Prod.mk.inj (Option.some.inj hw)
          exact ⟨_, .ask w hcall, _, rfl, rfl⟩
        · rintro o s ⟨o', ho, rfl⟩
          obtain rfl := Except.ok.inj ho
          cases o with
          | next headers => exact Follows.pure (.through headers)
          | limited => exact Follows.pure (.limited _ (by simp))
        · exact fun e => e.elim
    · exact fun e => e.elim
  · refine follows_heard _ fun w => .emit w (by rw [hcall]; rfl) (fun _ => rfl) fun r => ?_
    simp [AdmittedResponse.pending]
  · refine follows_heard _ fun w => .emit w (by rw [hcall]; rfl) (fun _ => rfl) fun r => ?_
    simp [AdmittedResponse.pending]
  · exact follows_heard _ fun w => .expire w hcall
  · exact Follows.pure (.through none)

/-- What the calls have left in front. -/
structure FrontInv (app : ι → AppOptions S) (expire : String → ℚ → S → S) (tokens : S)
    (calls : τ → AppCall ι β) (φ : τ → FrontPhase) (w : Front ι τ S) : Prop where
  present : ∀ i, (w.shedders i).isSome = (app i).concurrencyLimiter.isSome
  counts : ∀ i s options, w.shedders i = some s → (app i).concurrencyLimiter = some options →
    0 ≤ options.maxConcurrent → LoadShedder.Counts options.maxConcurrent
      (ConcurrencyLimiter.new options).lowPriorityThreshold s
  responses : ∀ i s, w.shedders i = some s →
    s.responses.length = (w.admitted.filter fun t => (calls t).requestedAt = some i).length
  admitted_nodup : w.admitted.Nodup
  mem_admitted : ∀ t, t ∈ w.admitted ↔ (calls t).requestedAt ≠ none ∧ (φ t).IsAdmitted
  decided_nodup : (w.decided.map Prod.fst).Nodup
  mem_decided : ∀ t o, (t, some o) ∈ w.decided
    ↔ (calls t).requestedAt ≠ none ∧ φ t = .afterLimit o
  expired : ∀ t, (t, none) ∈ w.decided →
    (∃ key nowMs, calls t = .expire key nowMs) ∧ φ t = .ended .heard
  decided_eq : w.decided
    = answers (fun t => (calls t).limit app expire) tokens (w.decided.map Prod.fst)
  tokens_eq : w.tokens
    = endState (fun t => (calls t).limit app expire) tokens (w.decided.map Prod.fst)
  ticks : ∀ t o, φ t = .afterLimit o → (calls t).requestedAt = none →
    (∃ ms, calls t = .tick ms) ∧ o = .next none

theorem FrontPhase.afterLimit_inj {o o' : RateLimiterOutcome}
    (h : FrontPhase.afterLimit o = .afterLimit o') : o = o' := by
  cases o <;> cases o' <;> simp_all [FrontPhase.afterLimit]

theorem FrontPhase.isAdmitted_afterLimit (o : RateLimiterOutcome) :
    (FrontPhase.afterLimit o).IsAdmitted := by cases o <;> trivial

theorem FrontPhase.afterLimit_ne_of_not_admitted {s : FrontPhase} (h : ¬ s.IsAdmitted)
    (o : RateLimiterOutcome) : s ≠ .afterLimit o :=
  fun he => h (he ▸ FrontPhase.isAdmitted_afterLimit o)

theorem FrontPhase.isAdmitted_afterShed (o : ShedderOutcome) :
    (FrontPhase.afterShed o).IsAdmitted ↔ o = .next := by
  cases o <;> simp [FrontPhase.afterShed, FrontPhase.IsAdmitted]

theorem FrontPhase.afterShed_ne_afterLimit (o : ShedderOutcome) (o' : RateLimiterOutcome) :
    FrontPhase.afterShed o ≠ .afterLimit o' := by
  cases o <;> cases o' <;> simp [FrontPhase.afterShed, FrontPhase.afterLimit]

namespace LoadShedder

theorem length_responses_middleware (req : RoutedRequest) (s : LoadShedder) :
    (middleware none req s).2.responses.length
      = s.responses.length + if (middleware none req s).1 = .next then 1 else 0 := by
  unfold middleware
  rcases s.limiter.tryAcquire_cases (Option.getD none defaultPriority req)
    with heq | ⟨-, -, heq⟩ <;> simp only [heq]
  · rfl
  · simp

theorem length_responses_emit (response : ℕ) (note : AdmittedResponse → AdmittedResponse)
    (s : LoadShedder) : (emit response note s).responses.length = s.responses.length := by
  unfold emit
  rcases s.responses[response]? with _ | r
  · rfl
  · exact List.length_set

end LoadShedder

namespace FrontInv

variable {φ : τ → FrontPhase} {w : Front ι τ S} {t : τ}

/-- A key has expired in a call that has ended. -/
theorem ne_of_expired (h : FrontInv app expire tokens calls φ w) {t' : τ}
    (hmem : (t', none) ∈ w.decided) (ht : φ t ≠ .ended .heard) : t' ≠ t := by
  rintro rfl
  exact ht (h.expired t' hmem).2

/-- A call that has not ended and that no rate limiter has decided on is not in the log. -/
theorem not_mem_decided (h : FrontInv app expire tokens calls φ w) (ht : φ t ≠ .ended .heard)
    (hlimit : ∀ o, φ t ≠ .afterLimit o) : t ∉ w.decided.map Prod.fst := fun hmem => by
  obtain ⟨⟨_, o⟩, ho, rfl⟩ := List.mem_map.1 hmem
  rcases o with _ | o
  · exact ht (h.expired _ ho).2
  · exact hlimit o ((h.mem_decided _ o).1 ho).2

/-- The rate limiter decides on what the load shedder let through. -/
theorem asked (h : FrontInv app expire tokens calls φ w) {outcome : RateLimiterOutcome}
    (hmem : (t, some outcome) ∈ w.decided) : t ∈ w.admitted := by
  obtain ⟨hrequest, hphase⟩ := (h.mem_decided t outcome).1 hmem
  refine (h.mem_admitted t).2 ⟨hrequest, ?_⟩
  rw [hphase]
  exact FrontPhase.isAdmitted_afterLimit outcome

/-- A request that has come through was let through by both. -/
theorem passed (h : FrontInv app expire tokens calls φ w) {headers : Option RateLimitHeaders}
    (hphase : φ t = .afterLimit (.next headers)) :
    (∃ ms, calls t = .tick ms) ∨ t ∈ w.admitted ∧ (t, some (.next headers)) ∈ w.decided := by
  by_cases hrequest : (calls t).requestedAt = none
  · exact .inl (h.ticks t _ hphase hrequest).1
  · have hdecided := (h.mem_decided t _).2 ⟨hrequest, hphase⟩
    exact .inr ⟨h.asked hdecided, hdecided⟩

theorem behind (h : FrontInv app expire tokens calls φ w)
    (hthrough : ∃ headers, φ t = .afterLimit (.next headers)) :
    (∃ ms, calls t = .tick ms) ∨ w.LetThrough t := by
  obtain ⟨headers, hphase⟩ := hthrough
  exact (h.passed hphase).imp_right fun h => ⟨h.1, headers, h.2⟩

theorem shed (h : FrontInv app expire tokens calls φ w) {outcome : ShedderOutcome}
    (hend : FrontEnds (.ok (.inl (.shed outcome))) (φ t)) : t ∉ w.admitted := fun hmem => by
  have hphase := ((h.mem_admitted t).1 hmem).2
  generalize φ t = s at hend hphase
  cases hend
  exact hphase

theorem limited (h : FrontInv app expire tokens calls φ w) {outcome : RateLimiterOutcome}
    (hend : FrontEnds (.ok (.inl (.limited outcome))) (φ t)) :
    (t, some outcome) ∈ w.decided ∧ ¬ w.LetThrough t := by
  obtain ⟨hphase, hlimited⟩ : φ t = .afterLimit outcome ∧ ∀ headers, outcome ≠ .next headers := by
    generalize φ t = s at hend
    cases hend with
    | limited _ hlimited => exact ⟨rfl, hlimited⟩
  have hrequest : (calls t).requestedAt ≠ none := fun hnone =>
    hlimited none (h.ticks t _ hphase hnone).2
  refine ⟨(h.mem_decided t _).2 ⟨hrequest, hphase⟩, ?_⟩
  rintro ⟨-, headers, hdecided⟩
  have hphase' := ((h.mem_decided t _).1 hdecided).2
  exact hlimited headers (FrontPhase.afterLimit_inj (hphase.symm.trans hphase'))

/-- One call more on the rate limiter. -/
theorem limited_snoc (h : FrontInv app expire tokens calls φ w) {o : Option RateLimiterOutcome}
    {s : S} (hlimit : (calls t).limit app expire w.tokens = (o, s)) :
    w.decided ++ [(t, o)] = answers (fun t => (calls t).limit app expire) tokens
        ((w.decided ++ [(t, o)]).map Prod.fst)
      ∧ s = endState (fun t => (calls t).limit app expire) tokens
        ((w.decided ++ [(t, o)]).map Prod.fst) := by
  rw [List.map_append, answers_append, endState_append, ← h.decided_eq, ← h.tokens_eq]
  simp [answers, endState, hlimit]

variable [DecidableEq τ]

omit [DecidableEq ι] in
/-- When a call that is no request has been heard, the phases of the requests are as they were. -/
theorem request_heard (hcall : (calls t).requestedAt = none) (t' : τ) (P : FrontPhase → Prop) :
    ((calls t').requestedAt ≠ none ∧ P (φ t'))
      ↔ ((calls t').requestedAt ≠ none ∧ P (Function.update φ t (.ended .heard) t')) := by
  rcases eq_or_ne t' t with rfl | hne
  · simp [hcall]
  · rw [Function.update_of_ne hne]

theorem ticks_heard (h : FrontInv app expire tokens calls φ w) {t' : τ} {o : RateLimiterOutcome}
    (hphase : Function.update φ t (.ended .heard) t' = .afterLimit o)
    (hnone : (calls t').requestedAt = none) : (∃ ms, calls t' = .tick ms) ∧ o = .next none := by
  rcases eq_or_ne t' t with rfl | hne
  · rw [Function.update_self] at hphase
    cases o <;> cases hphase
  · rw [Function.update_of_ne hne] at hphase
    exact h.ticks t' o hphase hnone

theorem arrive (h : FrontInv app expire tokens calls φ w) {i : ι} {env : RequestEnv β} {retries : ℕ}
    {onConsume : Fate} {nowMs dateNow : ℚ} {req : ApiRequest}
    (hcall : calls t = .request i env retries onConsume nowMs dateNow req)
    (ht : φ t = .arriving) :
    FrontInv app expire tokens calls (Function.update φ t (.afterShed (w.arrive t i req).1))
      (w.arrive t i req).2 := by
  have hat : (calls t).requestedAt = some i := by rw [hcall]; rfl
  have hnew : t ∉ w.admitted := fun hmem => by
    have hadmitted := ((h.mem_admitted t).1 hmem).2
    rw [ht] at hadmitted
    exact hadmitted
  have hadmitted : (w.arrive t i req).2.admitted
      = if (w.arrive t i req).1 = .next then w.admitted ++ [t] else w.admitted := rfl
  have hshedder : ∀ i' s', (w.arrive t i req).2.shedders i' = some s' → i' = i
        ∧ (∃ s, w.shedders i = some s ∧ s' = (LoadShedder.middleware none req.routed s).2
          ∧ (w.arrive t i req).1 = (LoadShedder.middleware none req.routed s).1)
      ∨ i' ≠ i ∧ w.shedders i' = some s' := by
    intro i' s' hs'
    simp only [Front.arrive] at hs'
    rcases eq_or_ne i' i with rfl | hne
    · rw [Function.update_self] at hs'
      rcases hs : w.shedders i' with _ | s <;> rw [hs] at hs'
      · cases hs'
      · refine .inl ⟨rfl, s, rfl, (Option.some.inj hs').symm, ?_⟩
        simp only [Front.arrive, hs]
        rfl
    · rw [Function.update_of_ne hne] at hs'
      exact .inr ⟨hne, hs'⟩
  refine ⟨fun i' => ?_, fun i' s' options hs' hoptions hmax => ?_, fun i' s' hs' => ?_, ?_,
    fun t' => ?_, h.decided_nodup, fun t' o => ?_, fun t' hmem => ?_, h.decided_eq, h.tokens_eq,
    fun t' o hphase hnone => ?_⟩
  · simp only [Front.arrive]
    rcases eq_or_ne i' i with rfl | hne
    · rw [Function.update_self, ← h.present i']
      rcases w.shedders i' with _ | s <;> rfl
    · rw [Function.update_of_ne hne]
      exact h.present i'
  · rcases hshedder i' s' hs' with ⟨rfl, s, hs, rfl, -⟩ | ⟨-, hs⟩
    · exact (h.counts i' s options hs hoptions hmax).arrive none req.routed
    · exact h.counts i' s' options hs hoptions hmax
  · rw [hadmitted]
    rcases hshedder i' s' hs' with ⟨rfl, s, hs, rfl, hnext⟩ | ⟨hne, hs⟩
    · rw [LoadShedder.length_responses_middleware, h.responses i' s hs, hnext]
      split
      · simp [List.filter_append, hat]
      · rfl
    · rw [h.responses i' s' hs]
      split
      · simp [List.filter_append, hat, Ne.symm hne]
      · rfl
  · rw [hadmitted]
    split
    · exact List.nodup_append.2 ⟨h.admitted_nodup, List.nodup_singleton t, by grind⟩
    · exact h.admitted_nodup
  · rw [hadmitted]
    rcases eq_or_ne t' t with rfl | hne
    · rw [Function.update_self, FrontPhase.isAdmitted_afterShed]
      split <;> simp_all
    · rw [Function.update_of_ne hne, ← h.mem_admitted t']
      split <;> simp [hne]
  · rcases eq_or_ne t' t with rfl | hne
    · rw [Function.update_self]
      have hne : FrontPhase.arriving ≠ .afterLimit o :=
        FrontPhase.afterLimit_ne_of_not_admitted (s := .arriving) (fun h => h) o
      refine (h.mem_decided t' o).trans (and_congr_right fun _ => ?_)
      simp only [ht, hne, FrontPhase.afterShed_ne_afterLimit]
    · rw [Function.update_of_ne hne]
      exact h.mem_decided t' o
  · have hne : t' ≠ t := h.ne_of_expired hmem (by simp [ht])
    rw [Function.update_of_ne hne]
    exact h.expired t' hmem
  · rcases eq_or_ne t' t with rfl | hne
    · rw [hat] at hnone
      cases hnone
    · rw [Function.update_of_ne hne] at hphase
      exact h.ticks t' o hphase hnone

theorem ask (h : FrontInv app expire tokens calls φ w) {i : ι} {env : RequestEnv β} {retries : ℕ}
    {onConsume : Fate} {nowMs dateNow : ℚ} {req : ApiRequest}
    (hcall : calls t = .request i env retries onConsume nowMs dateNow req)
    (ht : φ t = .admitted) :
    FrontInv app expire tokens calls
      (Function.update φ t
        (.afterLimit (w.ask t (app i) onConsume ⟨req.client, nowMs, dateNow⟩).1))
      (w.ask t (app i) onConsume ⟨req.client, nowMs, dateNow⟩).2 := by
  have hlimit : (calls t).limit app expire w.tokens
      = (some (w.ask t (app i) onConsume ⟨req.client, nowMs, dateNow⟩).1,
        (w.ask t (app i) onConsume ⟨req.client, nowMs, dateNow⟩).2.tokens) := by
    rw [hcall]
    rfl
  obtain ⟨hdecided, htokens⟩ := h.limited_snoc hlimit
  have hrequest : (calls t).requestedAt ≠ none := by simp [hcall, AppCall.requestedAt]
  have hnot : t ∉ w.decided.map Prod.fst :=
    h.not_mem_decided (by simp [ht]) fun o => by rw [ht]; cases o <;> simp [FrontPhase.afterLimit]
  have hnew : ∀ o, (t, o) ∉ w.decided := fun o hmem => hnot (List.mem_map_of_mem hmem)
  simp only [Front.ask]
  refine ⟨h.present, h.counts, h.responses, h.admitted_nodup, fun t' => ?_, ?_, fun t' o => ?_,
    fun t' hmem => ?_, hdecided, htokens, fun t' o hphase hnone => ?_⟩
  · rcases eq_or_ne t' t with rfl | hne
    · rw [Function.update_self, h.mem_admitted t', ht]
      exact and_congr_right fun _ =>
        iff_of_true trivial (FrontPhase.isAdmitted_afterLimit _)
    · rw [Function.update_of_ne hne]
      exact h.mem_admitted t'
  · rw [List.map_append, List.nodup_append]
    exact ⟨h.decided_nodup, List.nodup_singleton t, by grind⟩
  · rcases eq_or_ne t' t with rfl | hne
    · rw [Function.update_self, List.mem_append, or_iff_right (hnew _), List.mem_singleton,
        Prod.mk.injEq, Option.some.injEq]
      exact ⟨fun ho => ⟨hrequest, by rw [ho.2]⟩,
        fun ho => ⟨rfl, (FrontPhase.afterLimit_inj ho.2).symm⟩⟩
    · rw [Function.update_of_ne hne, ← h.mem_decided t' o]
      simp [hne]
  · have hmem : (t', none) ∈ w.decided := by simpa using hmem
    have hne : t' ≠ t := h.ne_of_expired hmem (by simp [ht])
    rw [Function.update_of_ne hne]
    exact h.expired t' hmem
  · rcases eq_or_ne t' t with rfl | hne
    · exact absurd hnone hrequest
    · rw [Function.update_of_ne hne] at hphase
      exact h.ticks t' o hphase hnone

theorem emit (h : FrontInv app expire tokens calls φ w) {i : ι} {response : ℕ}
    {note : AdmittedResponse → AdmittedResponse} (hcall : (calls t).requestedAt = none)
    (hreleased : ∀ r, (note r).released = r.released) (hpending : ∀ r, (note r).pending = false) :
    FrontInv app expire tokens calls (Function.update φ t (.ended .heard))
      (w.emit i response note) := by
  have hshedder : ∀ i' s', (w.emit i response note).shedders i' = some s' →
      ∃ s, w.shedders i' = some s ∧ (s' = s ∨ s' = LoadShedder.emit response note s) := by
    intro i' s' hs'
    simp only [Front.emit] at hs'
    rcases eq_or_ne i' i with rfl | hne
    · rw [Function.update_self] at hs'
      obtain ⟨s, hs, rfl⟩ := Option.map_eq_some_iff.1 hs'
      exact ⟨s, hs, .inr rfl⟩
    · rw [Function.update_of_ne hne] at hs'
      exact ⟨s', hs', .inl rfl⟩
  refine ⟨fun i' => ?_, fun i' s' options hs' hoptions hmax => ?_, fun i' s' hs' => ?_,
    h.admitted_nodup,
    fun t' => (h.mem_admitted t').trans (request_heard hcall t' FrontPhase.IsAdmitted),
    h.decided_nodup,
    fun t' o => (h.mem_decided t' o).trans (request_heard hcall t' (· = .afterLimit o)),
    fun t' hmem => ?_, h.decided_eq, h.tokens_eq, fun t' o => h.ticks_heard⟩
  · simp only [Front.emit]
    rcases eq_or_ne i' i with rfl | hne
    · rw [Function.update_self, Option.isSome_map, h.present i']
    · rw [Function.update_of_ne hne]
      exact h.present i'
  · obtain ⟨s, hs, rfl | rfl⟩ := hshedder i' s' hs'
    · exact h.counts i' s' options hs hoptions hmax
    · exact (h.counts i' s options hs hoptions hmax).emit response hreleased hpending
  · obtain ⟨s, hs, rfl | rfl⟩ := hshedder i' s' hs'
    · exact h.responses i' s' hs
    · rw [LoadShedder.length_responses_emit]
      exact h.responses i' s hs
  · refine ⟨(h.expired t' hmem).1, ?_⟩
    rcases eq_or_ne t' t with rfl | hne
    · rw [Function.update_self]
    · rw [Function.update_of_ne hne]
      exact (h.expired t' hmem).2

theorem expire_key (h : FrontInv app expire tokens calls φ w) {key : String} {nowMs : ℚ}
    (hcall : calls t = .expire key nowMs) (ht : φ t = .arriving) :
    FrontInv app expire tokens calls (Function.update φ t (.ended .heard))
      (w.expire t expire key nowMs) := by
  have hrequest : (calls t).requestedAt = none := by rw [hcall]; rfl
  have hlimit : (calls t).limit app expire w.tokens = (none, expire key nowMs w.tokens) := by
    rw [hcall]; rfl
  obtain ⟨hdecided, htokens⟩ := h.limited_snoc hlimit
  have hnot : t ∉ w.decided.map Prod.fst :=
    h.not_mem_decided (by simp [ht]) fun o => by rw [ht]; cases o <;> simp [FrontPhase.afterLimit]
  simp only [Front.expire]
  refine ⟨h.present, h.counts, h.responses, h.admitted_nodup,
    fun t' => (h.mem_admitted t').trans (request_heard hrequest t' FrontPhase.IsAdmitted), ?_,
    fun t' o => ?_, fun t' hmem => ?_, hdecided, htokens, fun t' o => h.ticks_heard⟩
  · rw [List.map_append, List.nodup_append]
    exact ⟨h.decided_nodup, List.nodup_singleton t, by grind⟩
  · rw [← request_heard hrequest t' (· = .afterLimit o), ← h.mem_decided t' o]
    simp
  · rcases eq_or_ne t' t with rfl | hne
    · exact ⟨⟨key, nowMs, hcall⟩, Function.update_self ..⟩
    · have hmem : (t', none) ∈ w.decided := by simpa [hne] using hmem
      rw [Function.update_of_ne hne]
      exact h.expired t' hmem

theorem step (h : FrontInv app expire tokens calls φ w) {w' : Front ι τ S} {s : FrontPhase}
    (hs : FrontStep app expire calls t (φ t) w w' s) :
    FrontInv app expire tokens calls (Function.update φ t s) w' := by
  generalize hφ : φ t = s₀ at hs
  cases hs with
  | arrive _ hcall => exact h.arrive hcall hφ
  | ask _ hcall => exact h.ask hcall hφ
  | emit _ hcall hreleased hpending => exact h.emit hcall hreleased hpending
  | expire _ hcall => exact h.expire_key hcall hφ

end FrontInv

theorem frontInv_new : FrontInv app expire tokens calls (startPhase calls) (.new app tokens) where
  present i := by simp [Front.new]
  counts i s options hs hoptions hmax := by
    simp only [Front.new, hoptions, Option.map_some, Option.some.injEq] at hs
    subst hs
    exact LoadShedder.counts_unused hmax _
  responses i s hs := by
    obtain ⟨options, -, rfl⟩ := Option.map_eq_some_iff.1 hs
    rfl
  admitted_nodup := List.nodup_nil
  mem_admitted t := by
    unfold startPhase
    rcases calls t with _ | _ | _ | _ | _ <;>
      simp [Front.new, AppCall.requestedAt, FrontPhase.IsAdmitted]
  decided_nodup := List.nodup_nil
  mem_decided t o := by
    unfold startPhase
    rcases calls t with _ | _ | _ | _ | _ <;> cases o <;>
      simp [Front.new, AppCall.requestedAt, FrontPhase.afterLimit]
  expired t hmem := by cases hmem
  decided_eq := rfl
  tokens_eq := rfl
  ticks t o hphase hnone := by
    unfold startPhase at hphase
    rcases hcall : calls t with _ | _ | _ | _ | ms <;> rw [hcall] at hphase hnone
    · cases hnone
    · cases o <;> cases hphase
    · cases o <;> cases hphase
    · cases o <;> cases hphase
    · exact ⟨⟨ms, rfl⟩, (FrontPhase.afterLimit_inj (o := .next none) hphase).symm⟩

/-- What the call has been let through with stays so. -/
theorem FrontStep.through_ne {t : τ} {s s' : FrontPhase} {w w' : Front ι τ S}
    (h : FrontStep app expire calls t s w w' s') (headers : Option RateLimitHeaders) :
    s ≠ .afterLimit (.next headers) := by
  cases h <;> simp [FrontPhase.afterLimit]

/-- What a call is answered with that was let through. -/
def AnsweredBehind (v : Except IdempotencyError (Option (HttpResponse β)))
    (r : Except Empty (AppResult β)) (s : FrontPhase) : Prop :=
  ∃ headers, r = .ok (.inr (headers, v)) ∧ s = .afterLimit (.next headers)

theorem follows_behind (t : τ) (x : Option RateLimitHeaders) (s : FrontPhase)
    (v : Except IdempotencyError (Option (HttpResponse β))) (h : FrontEnds (.ok (.inr x)) s) :
    Follows (FrontStep app expire calls t) (AnsweredBehind v)
      (pure (.inr (x, v)) : Async (Front ι τ S) Empty (AppResult β)) s := by
  cases h
  exact Follows.pure ⟨x, rfl, rfl⟩

end Front

/-! ## The table behind them -/

section Runs

variable [DecidableEq τ] {sha256 : String → String} {calls : τ → HttpCall β}

/-- A handler begins where its call takes a step, and the call has a key. -/
theorem KeyStep.mem_runs {t t' : τ} {db db' : IdempotencyDb τ β}
    (h : KeyStep sha256 calls t db db') (ht' : t' ∈ db'.runs) :
    t' ∈ db.runs ∨ t' = t ∧ (calls t).key ≠ none := by
  have hgrant : ∀ (db₁ : IdempotencyDb τ β) (granted : Bool) (lease : Lease τ) (key : String),
      t' ∈ (db₁.grantIf granted t lease).runs → db₁.runs = db.runs → (calls t).key = some key →
      t' ∈ db.runs ∨ t' = t ∧ (calls t).key ≠ none := by
    intro db₁ granted lease key hmem hruns hkey
    rw [← hruns]
    cases granted
    · exact .inl hmem
    · refine (List.mem_append.1 hmem).imp_right fun ht => ⟨List.mem_singleton.1 ht, ?_⟩
      simp [hkey]
  cases h with
  | insert _ hkey => exact hgrant _ _ _ _ ht' rfl hkey
  | reclaim _ hkey => exact hgrant _ _ _ _ ht' rfl hkey
  | _ => exact .inl ht'

theorem exists_step_of_mem_runs {h : List (Taken τ (IdempotencyDb τ β))}
    {c : Config τ (IdempotencyDb τ β) IdempotencyError (Option (HttpResponse β))}
    (hrun : (httpCalls sha256 calls).Run h c) {t : τ} (ht : t ∈ c.world.runs) :
    (∃ s ∈ h, s.thread = t) ∧ (calls t).key ≠ none := by
  refine Safe.run keyRely_of_ne safe_httpCalls
    (P := fun h db => ∀ t ∈ db.runs, (∃ s ∈ h, s.thread = t) ∧ (calls t).key ≠ none)
    (fun t ht => by cases ht) (fun h db t db' hP hs t' ht' => ?_) hrun t ht
  rcases hs.mem_runs ht' with hmem | ⟨rfl, hkey⟩
  · obtain ⟨⟨s, hs', rfl⟩, hkey⟩ := hP t' hmem
    exact ⟨⟨s, List.mem_append_left _ hs', rfl⟩, hkey⟩
  · exact ⟨⟨_, List.mem_append_right _ (List.mem_singleton_self _), rfl⟩, hkey⟩

end Runs

/-! ## The app -/

section App

variable [DecidableEq τ]

/-- What the calls at the instances have come to. -/
structure Shielded (app : ι → AppOptions S) (expire : String → ℚ → S → S) (tokens : S)
    (sha256 : String → String) (calls : τ → AppCall ι β)
    (d : Config τ (Front ι τ S × IdempotencyDb τ β) Empty (AppResult β)) : Prop where
  slots : ∀ i options, (app i).concurrencyLimiter = some options → 0 ≤ options.maxConcurrent →
    ∃ s, d.world.1.shedders i = some s
      ∧ s.responses.length
        = (d.world.1.admitted.filter fun t => (calls t).requestedAt = some i).length
      ∧ s.limiter.activeRequests = s.responses.countP AdmittedResponse.pending
      ∧ s.limiter.activeRequests ≤ ⌈options.maxConcurrent⌉
  once : d.world.1.admitted.Nodup ∧ (d.world.1.decided.map Prod.fst).Nodup
  asked : ∀ t outcome, (t, some outcome) ∈ d.world.1.decided → t ∈ d.world.1.admitted
  expired : ∀ t, (t, none) ∈ d.world.1.decided → ∃ key nowMs, calls t = .expire key nowMs
  decided : d.world.1.decided
    = answers (fun t => (calls t).limit app expire) tokens (d.world.1.decided.map Prod.fst)
  tokens : d.world.1.tokens
    = endState (fun t => (calls t).limit app expire) tokens (d.world.1.decided.map Prod.fst)
  shed : ∀ t outcome, (d.thread t).result = some (.ok (.inl (.shed outcome))) →
    t ∉ d.world.1.admitted
  limited : ∀ t outcome, (d.thread t).result = some (.ok (.inl (.limited outcome))) →
    (t, some outcome) ∈ d.world.1.decided ∧ ¬ d.world.1.LetThrough t
  handlers : ∀ t ∈ d.world.2.runs, d.world.1.LetThrough t
  /-- What is answered behind them, by a handler or for it, with a key or without one. -/
  passed : ∀ t headers r, (d.thread t).result = some (.ok (.inr (headers, r))) →
    (∃ ms, calls t = .tick ms)
      ∨ t ∈ d.world.1.admitted ∧ (t, some (.next headers)) ∈ d.world.1.decided
  behind : ∃ h c, (httpCalls sha256 fun t => (calls t).http).Run h c ∧ c.world = d.world.2
    ∧ (∀ s ∈ h, (∃ ms, calls s.thread = .tick ms) ∨ d.world.1.LetThrough s.thread)
    ∧ ∀ t headers r, (d.thread t).result = some (.ok (.inr (headers, r))) →
      (c.thread t).result = some r

variable {app : ι → AppOptions S} {expire : String → ℚ → S → S} {tokens : S}
  {sha256 : String → String} {calls : τ → AppCall ι β}

/-- A run of the app is one of the idempotency middleware, in which only calls take steps that were
let through. -/
theorem behind_run {h : List (Taken τ (Front ι τ S × IdempotencyDb τ β))}
    {d : Config τ (Front ι τ S × IdempotencyDb τ β) Empty (AppResult β)}
    (hrun : (appCalls app expire tokens sha256 calls).Run h d) :
    ∃ h₂ d₂ φ, (httpCalls sha256 fun t => (calls t).http).Run h₂ d₂ ∧ d₂.world = d.world.2
      ∧ (FrontInv app expire tokens calls φ d.world.1
        ∧ ∀ s ∈ h₂, ∃ headers, φ s.thread = .afterLimit (.next headers))
      ∧ ∀ t, Staged (FrontStep app expire calls t) FrontEnds AnsweredBehind .inl
        (fun headers r => pure (.inr (headers, r))) (φ t) (d.thread t) (d₂.thread t) := by
  refine Config.run_bracket
    (I := fun h₂ φ w => FrontInv app expire tokens calls φ w
      ∧ ∀ s ∈ h₂, ∃ headers, φ s.thread = .afterLimit (.next headers))
    follows_front follows_behind ⟨frontInv_new, by simp⟩ ?_ ?_ hrun
  · intro h₂ φ w t w' s' hI hs
    refine ⟨hI.1.step hs, fun s hmem => ?_⟩
    obtain ⟨headers, hphase⟩ := hI.2 s hmem
    have hne : s.thread ≠ t := fun he => hs.through_ne headers (he ▸ hphase)
    exact ⟨headers, (Function.update_of_ne hne _ _).trans hphase⟩
  · intro h₂ φ w t x v v' hI hx
    refine ⟨hI.1, fun s hmem => ?_⟩
    rcases List.mem_append.1 hmem with hmem | hmem
    · exact hI.2 s hmem
    · obtain rfl := List.mem_singleton.1 hmem
      refine ⟨x, ?_⟩
      generalize φ t = s at hx
      cases hx
      rfl

/-- A handler begins for a request that both let through. -/
theorem FrontInv.letThrough_of_mem_runs {φ : τ → FrontPhase} {w : Front ι τ S}
    (hI : FrontInv app expire tokens calls φ w) {h₂ : List (Taken τ (IdempotencyDb τ β))}
    {d₂ : Config τ (IdempotencyDb τ β) IdempotencyError (Option (HttpResponse β))}
    (hrun₂ : (httpCalls sha256 fun t => (calls t).http).Run h₂ d₂)
    (hthrough : ∀ s ∈ h₂, ∃ headers, φ s.thread = .afterLimit (.next headers)) {t : τ}
    (ht : t ∈ d₂.world.runs) : w.LetThrough t := by
  obtain ⟨⟨s, hs, rfl⟩, hkey⟩ := exists_step_of_mem_runs hrun₂ ht
  refine (hI.behind (hthrough s hs)).resolve_left ?_
  rintro ⟨ms, htick⟩
  exact hkey (by rw [htick]; rfl)

/-- Any calls at any number of instances, interleaved in any way. The requests that an instance's
load shedder let through and whose responses have emitted nothing are as many as its limiter counts,
and no more than it may let in. Each of them asks the rate limiter once at most, and the answers and
the tokens are what they would be one after the other. No handler begins for a request that either
of them answered, under a key or without one, and the table of idempotency keys, and what the
requests that were let through are answered with, are those of a run in which the others take no
step. -/
theorem shielded_app {h : List (Taken τ (Front ι τ S × IdempotencyDb τ β))}
    {d : Config τ (Front ι τ S × IdempotencyDb τ β) Empty (AppResult β)}
    (hrun : (appCalls app expire tokens sha256 calls).Run h d) :
    Shielded app expire tokens sha256 calls d := by
  obtain ⟨h₂, d₂, φ, hrun₂, hw, ⟨hI, hthrough⟩, hstaged⟩ := behind_run hrun
  have hanswered : ∀ t a, (d.thread t).result = some (.ok (.inl a)) →
      FrontEnds (.ok (.inl a)) (φ t) := by
    intro t a hr
    rcases (hstaged t).result (follows_behind t) hr with ⟨e, -, -⟩ | ⟨a', ha, hend⟩ | ⟨v, -, hv⟩
    · exact e.elim
    · obtain rfl := Sum.inl.inj (Except.ok.inj ha)
      exact hend
    · obtain ⟨headers, ha, -⟩ := hv
      cases ha
  have hbehind : ∀ t headers r, (d.thread t).result = some (.ok (.inr (headers, r))) →
      (d₂.thread t).result = some r ∧ φ t = .afterLimit (.next headers) := by
    intro t headers r hr
    rcases (hstaged t).result (follows_behind t) hr with ⟨e, -, -⟩ | ⟨a, ha, -⟩ | ⟨v, hv, hend⟩
    · exact e.elim
    · cases ha
    · obtain ⟨headers', ha, hphase⟩ := hend
      obtain ⟨rfl, rfl⟩ := Prod.mk.inj (Sum.inr.inj (Except.ok.inj ha))
      exact ⟨hv, hphase⟩
  refine ⟨fun i options hoptions hmax => ?_, ⟨hI.admitted_nodup, hI.decided_nodup⟩,
    fun t outcome ho => hI.asked ho, fun t ht => (hI.expired t ht).1, hI.decided_eq, hI.tokens_eq,
    fun t outcome hr => hI.shed (hanswered t _ hr),
    fun t outcome hr => hI.limited (hanswered t _ hr),
    fun t ht => hI.letThrough_of_mem_runs hrun₂ hthrough (hw ▸ ht),
    fun t headers r hr => hI.passed (hbehind t headers r hr).2,
    h₂, d₂, hrun₂, hw, fun s hs => hI.behind (hthrough s hs),
    fun t headers r hr => (hbehind t headers r hr).1⟩
  have hsome : (d.world.1.shedders i).isSome := by rw [hI.present i, hoptions, Option.isSome_some]
  obtain ⟨s, hs⟩ := Option.isSome_iff_exists.1 hsome
  have hcounts := hI.counts i s options hs hoptions hmax
  refine ⟨s, hs, hI.responses i s hs, ?_, hcounts.active_le⟩
  rw [hcounts.active_eq, List.countP_congr fun r hr => by rw [hcounts.holding_eq r hr]]

end App

/-! ## A burst -/

/-- An instance with one slot, and a bucket of one token. -/
def smallApp (_ : Unit) : AppOptions InMemoryTokenBucketStrategy.Buckets :=
  ⟨some ⟨1, none⟩, some fun _ => inMemoryTokenBucketStrategy ⟨1, 1⟩⟩

def createRequest (key : String) : AppCall Unit String :=
  .request () ⟨fun _ => .answered, fun _ => .answered, .answered, .answered,
      .finished 201 (some key)⟩ 0 .answered 0 0
    ⟨"POST", "/events", none, some "alice", some key, some "10.0.0.1", some "\x7b\x7d"⟩

/-- Three requests of one client; the first one's response is closed in between. -/
def burst (t : ℕ) : AppCall Unit String :=
  if t = 0 then createRequest "a" else if t = 1 then createRequest "b"
  else if t = 2 then createRequest "c" else .close () 0

/-- The second request finds no slot, the third one no token, and the handler of the first one runs
alone. -/
theorem shielded_app_burst : ∃ h d,
    (appCalls smallApp (fun _ _ buckets => buckets) (fun _ => none) sampleSha256 burst).Run h d
      ∧ Shielded smallApp (fun _ _ buckets => buckets) (fun _ => none) sampleSha256 burst d
      ∧ d.world.1.admitted = [0, 2] ∧ d.world.1.decided.map Prod.fst = [0, 2]
      ∧ d.world.2.runs = [0] := by
  have hany : ((appCalls smallApp (fun _ _ buckets => buckets) (fun _ => none) sampleSha256
      burst).history [0, 0, 1, 0, 0, 3, 2, 2, 0]).any fun p => p.2.world.1.admitted = [0, 2]
        ∧ p.2.world.1.decided.map Prod.fst = [0, 2] ∧ p.2.world.2.runs = [0] := by
    decide +kernel
  obtain ⟨⟨h, d⟩, hp, hfacts⟩ := (Option.any_eq_true _ _).1 hany
  have hrun := Config.run_of_history _ hp
  exact ⟨h, d, hrun, shielded_app hrun, of_decide_eq_true hfacts⟩

end LaunchPad
