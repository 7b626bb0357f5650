import LaunchPad.Proofs.App
import LaunchPad.Proofs.Scoping

/-!
# What one client gets

The instances share the token buckets in Redis. What the requests with one key of the rate limiter
are answered depends on each other only, and on when Redis drops the key (`cellwise_limit`). A
request that is let through takes a token, and a key that is dropped had filled, so the tokens there
are and those that flow in are enough for all that are let through (`passed_le`). The handlers that
begin for them are held to the rate, whichever instances they come in at.
-/

namespace LaunchPad

open Bucket Feed Interleave RedisTokenBucketStrategy

variable {ι τ β : Type}

namespace AppCall

/-- The key of the rate limiter that a call concerns. -/
def bucket : AppCall ι β → Option String
  | .request _ _ _ _ _ _ req => some req.client.defaultKeyGen
  | .expire key _ => some key
  | _ => none

/-- What the clock of the rate limiter shows. -/
def nowMs : AppCall ι β → ℚ
  | .request _ _ _ _ nowMs _ _ => nowMs
  | .expire _ nowMs => nowMs
  | _ => 0

def onConsume : AppCall ι β → Fate
  | .request _ _ _ onConsume _ _ _ => onConsume
  | _ => .answered

end AppCall

/-- The middleware calls `next`. -/
def RateLimiterOutcome.isNext : RateLimiterOutcome → Bool
  | .next _ => true
  | .limited .. => false

theorem isNext_scopedLimiter {S : Type} (strategy : IRateLimiterStrategy S) (a : Arrival) (s : S) :
    (scopedLimiter strategy none a s).1.isNext
      = (strategy.consume ⟨a.req.defaultKeyGen, 1, a.nowMs⟩ s).1.allowed := by
  simp only [scopedLimiter, rateLimiter, Option.getD_none]
  split <;> simp_all [RateLimiterOutcome.isNext]

/-! ## One key -/

section Limit

variable {options : TokenBucketOptions} {app : ι → AppOptions Keyspace}

/-- The hash that Redis has under the key of a call. -/
def hashAt (redis : Keyspace) (key : Option String) : Option Hash :=
  key.bind fun key => redis (redisKey key)

theorem cellwise_redisRateLimiter (options : TokenBucketOptions) (fate : Fate) :
    Cellwise (redisRateLimiter options fate).consume (fun redis key => redis (redisKey key))
      Consume.key := by
  have hran := cellwise_redis options
  cases fate with
  | answered => exact hran
  | failed => exact ⟨fun _ _ _ _ => rfl, fun _ _ _ _ => rfl, fun _ _ _ h => h⟩
  | answerLost => exact ⟨hran.other, fun _ _ _ _ => rfl, hran.own⟩

theorem expire_of_ne {key key' : String} (hkey : key ≠ key') (nowMs : ℚ) (redis : Keyspace) :
    RedisTokenBucketStrategy.expire key nowMs redis (redisKey key') = redis (redisKey key') := by
  rcases expire_eq key nowMs redis with h | ⟨h, -⟩
  · rw [h]
  · rw [h, Function.update_of_ne (mt redisKey_inj.1 (Ne.symm hkey))]

theorem expire_congr {key : String} {redis redis' : Keyspace}
    (h : redis (redisKey key) = redis' (redisKey key)) (nowMs : ℚ) :
    RedisTokenBucketStrategy.expire key nowMs redis (redisKey key)
      = RedisTokenBucketStrategy.expire key nowMs redis' (redisKey key) := by
  unfold RedisTokenBucketStrategy.expire
  rw [h]
  rcases hb : redis' (redisKey key) with _ | bucket
  · simpa only [hb] using h
  · simp only []
    split
    · rw [Function.update_self, Function.update_self]
    · rw [h]

variable (hshared : ∀ i, (app i).rateLimiterStrategy = some (redisRateLimiter options))

include hshared

theorem limitRate_shared (i : ι) (onConsume : Fate) (a : Arrival) (s : Keyspace) :
    limitRate (app i) onConsume a s
      = scopedLimiter (redisRateLimiter options onConsume) none a s := by
  rw [limitRate, hshared i]
  rfl

/-- A call has no influence on the other keys, and they have none on it. -/
theorem cellwise_limit (calls : τ → AppCall ι β) :
    Cellwise (fun t => (calls t).limit app expire) hashAt fun t => (calls t).bucket where
  other t s key hkey := by
    rcases key with _ | key
    · rfl
    rcases hcall : calls t with ⟨i, env, retries, onConsume, nowMs, dateNow, req⟩ | _ | _
      | ⟨key', nowMs⟩ | _ <;> rw [hcall] at hkey
    · have hne : req.client.defaultKeyGen ≠ key := fun he => hkey (congrArg some he)
      simp only [AppCall.limit, limitRate_shared hshared, Prod.map_snd, id, scopedLimiter_snd]
      exact (cellwise_redisRateLimiter options onConsume).other ⟨_, _, _⟩ s key hne
    · rfl
    · rfl
    · exact expire_of_ne (fun he => hkey (congrArg some he)) nowMs s
    · rfl
  answer t s s' h := by
    rcases hcall : calls t with
      ⟨i, env, retries, onConsume, nowMs, dateNow, req⟩ | _ | _ | _ | _ <;> rw [hcall] at h
    · simp only [AppCall.limit, limitRate_shared hshared, Prod.map_fst]
      exact congrArg some (scopedLimiter_fst none
        ((cellwise_redisRateLimiter options onConsume).answer ⟨_, _, _⟩ s s' h))
    all_goals rfl
  own t s s' h := by
    rcases hcall : calls t with ⟨i, env, retries, onConsume, nowMs, dateNow, req⟩ | _ | _
      | ⟨key, nowMs⟩ | _ <;> rw [hcall] at h
    · simp only [AppCall.limit, limitRate_shared hshared, Prod.map_snd, id, scopedLimiter_snd]
      exact (cellwise_redisRateLimiter options onConsume).own ⟨_, _, _⟩ s s' h
    · rfl
    · rfl
    · exact expire_congr h nowMs
    · rfl

variable {call : AppCall ι β} {s : Keyspace}

theorem lasting_limit (hcap : 0 ≤ options.capacity) (hrate : 0 ≤ options.refillRate)
    (hs : Lasting options s) : Lasting options (call.limit app expire s).2 := by
  rcases call with ⟨i, env, retries, onConsume, nowMs, dateNow, req⟩ | _ | _ | ⟨key, nowMs⟩ | _
  · simp only [AppCall.limit, limitRate_shared hshared, Prod.map_snd, id, scopedLimiter_snd]
    have hran := hs.consume hcap hrate ⟨req.client.defaultKeyGen, 1, nowMs⟩
    cases onConsume
    · exact hran
    · exact hs
    · exact hran
  · exact hs
  · exact hs
  · rcases expire_eq key nowMs s with h | ⟨h, -⟩ <;> simp only [AppCall.limit, h]
    · exact hs
    · exact hs.erase key
  · exact hs

theorem lasting_endState (hcap : 0 ≤ options.capacity) (hrate : 0 ≤ options.refillRate)
    {calls : τ → AppCall ι β} : ∀ (ts : List τ) {s : Keyspace}, Lasting options s →
      Lasting options (endState (fun t => (calls t).limit app expire) s ts)
  | [], _, hs => hs
  | _ :: ts, _, hs => lasting_endState hcap hrate ts (lasting_limit hshared hcap hrate hs)

/-- A request that is let through takes a token, and a key that is dropped had filled. -/
theorem passed_add_refilled_le (hcap : 0 < options.capacity) (hrate : 0 < options.refillRate)
    (hs : Lasting options s) {key : String} (hkey : call.bucket = some key)
    (hanswered : call.onConsume = .answered) :
    (if (call.limit app expire s).1.any RateLimiterOutcome.isNext then 1 else 0)
        + refilled options.capacity options.refillRate (level (call.limit app expire s).2 key)
          (call.nowMs / 1000)
      ≤ refilled options.capacity options.refillRate (level s key) (call.nowMs / 1000) := by
  rcases call with ⟨i, env, retries, onConsume, nowMs, dateNow, req⟩ | _ | _ | ⟨key', nowMs⟩ | _
  · obtain rfl : onConsume = .answered := hanswered
    obtain rfl := Option.some.inj hkey
    have hd := draws_redis options
    have htaken : refilled options.capacity options.refillRate (some (draw options.capacity
        options.refillRate (level s req.client.defaultKeyGen) (nowMs / 1000) 1)) (nowMs / 1000)
          + taken options.capacity options.refillRate (level s req.client.defaultKeyGen)
            (nowMs / 1000) 1
        ≤ refilled options.capacity options.refillRate (level s req.client.defaultKeyGen)
          (nowMs / 1000) :=
      refilled_draw_add_taken_le _ _ _
    have hown : level ((redisRateLimiter options .answered).consume
        ⟨req.client.defaultKeyGen, 1, nowMs⟩ s).2 req.client.defaultKeyGen = _ :=
      hd.own ⟨req.client.defaultKeyGen, 1, nowMs⟩ s
    have hallowed : ((redisRateLimiter options .answered).consume
        ⟨req.client.defaultKeyGen, 1, nowMs⟩ s).1.allowed = true ↔ _ :=
      hd.allowed_iff ⟨req.client.defaultKeyGen, 1, nowMs⟩ s
    simp only [AppCall.limit, limitRate_shared hshared, Prod.map_fst, Prod.map_snd, id,
      scopedLimiter_snd, Option.any_some, isNext_scopedLimiter, Option.getD_none, hown, hallowed]
    rw [add_comm]
    exact htaken
  · cases hkey
  · cases hkey
  · obtain rfl := Option.some.inj hkey
    have hnone : (AppCall.limit app expire (.expire key' nowMs : AppCall ι β) s).1.any
        RateLimiterOutcome.isNext = false := rfl
    rw [hnone, if_neg Bool.false_ne_true, zero_add]
    change refilled _ _ (level (RedisTokenBucketStrategy.expire key' nowMs s) key') (nowMs / 1000)
      ≤ _
    rcases expire_eq key' nowMs s with h | ⟨-, bucket, hb, hold⟩
    · rw [h]
      exact le_rfl
    · have hlevel : level s key' = some ⟨bucket.tokens, bucket.lastUpdated⟩ := by
        simp [level, hb]
      have hfull := hs.full_of_expired hcap hrate hb hold
      refine (refilled_le _ _).trans_eq ?_
      rw [hlevel]
      exact (refilled_eq_cap hrate.le (hs.tokens_nonneg key' _ hlevel) hfull).symm
  · cases hkey

/-- The tokens there are and those that flow in are enough for the requests that are let through. -/
theorem passed_le (hcap : 0 < options.capacity) (hrate : 0 < options.refillRate) {key : String}
    {calls : τ → AppCall ι β} {lastMs : ℚ} :
    ∀ (ts : List τ) {s : Keyspace} {nowMs : ℚ}, Lasting options s →
      (∀ t ∈ ts, (calls t).bucket = some key ∧ (calls t).onConsume = .answered) →
      (∀ t ∈ ts, nowMs ≤ (calls t).nowMs ∧ (calls t).nowMs ≤ lastMs) → nowMs ≤ lastMs →
      (ts.Pairwise fun t t' => (calls t).nowMs ≤ (calls t').nowMs) →
      (((answers (fun t => (calls t).limit app expire) s ts).countP fun p =>
          p.2.any RateLimiterOutcome.isNext : ℕ) : ℚ)
        ≤ refilled options.capacity options.refillRate (level s key) (nowMs / 1000)
          + options.refillRate * ((lastMs - nowMs) / 1000)
  | [], s, nowMs, hs, _, _, hle, _ => by
    have hfull := refilled_nonneg hcap.le hrate.le (hs.tokens_nonneg key) (nowMs / 1000)
    have hin := mul_nonneg hrate.le (div_nonneg (sub_nonneg.2 hle) (by norm_num : (0 : ℚ) ≤ 1000))
    simpa [answers] using add_nonneg hfull hin
  | t :: ts, s, nowMs, hs, hcalls, hwithin, hle, htimes => by
    obtain ⟨hkey, hanswered⟩ := hcalls t List.mem_cons_self
    obtain ⟨hnow, hlast⟩ := hwithin t List.mem_cons_self
    obtain ⟨hnext, htimes⟩ := List.pairwise_cons.1 htimes
    have hlasting : Lasting options ((calls t).limit app expire s).2 :=
      lasting_limit hshared hcap.le hrate.le hs
    have ih := passed_le hcap hrate ts hlasting
      (fun t' ht' => hcalls t' (List.mem_cons_of_mem t ht'))
      (fun t' ht' => ⟨hnext t' ht', (hwithin t' (List.mem_cons_of_mem t ht')).2⟩) hlast htimes
    have hstep := passed_add_refilled_le hshared hcap hrate hs hkey hanswered
    have hrefill : refilled options.capacity options.refillRate (level s key)
          ((calls t).nowMs / 1000)
        ≤ refilled options.capacity options.refillRate (level s key) (nowMs / 1000)
          + ((calls t).nowMs / 1000 - nowMs / 1000) * options.refillRate :=
      refilled_le_add hrate.le (level s key)
        (div_le_div_of_nonneg_right hnow (by norm_num : (0 : ℚ) ≤ 1000))
    have hcount : (((answers (fun t => (calls t).limit app expire) s (t :: ts)).countP fun p =>
        p.2.any RateLimiterOutcome.isNext : ℕ) : ℚ)
          = ((answers (fun t => (calls t).limit app expire) ((calls t).limit app expire s).2
              ts).countP fun p => p.2.any RateLimiterOutcome.isNext : ℕ)
            + if ((calls t).limit app expire s).1.any RateLimiterOutcome.isNext then 1 else 0 := by
      rw [answers, List.countP_cons]
      push_cast
      rfl
    rw [hcount]
    have hsplit : options.refillRate * ((lastMs - nowMs) / 1000)
        = options.refillRate * ((lastMs - (calls t).nowMs) / 1000)
          + ((calls t).nowMs / 1000 - nowMs / 1000) * options.refillRate := by ring
    rw [hsplit]
    linarith

end Limit

variable [DecidableEq ι] [DecidableEq τ]

/-- Two instances, with a bucket of one token for each client. -/
def twoInstances (_ : Bool) : AppOptions Keyspace :=
  ⟨none, some (redisRateLimiter ⟨1, 1⟩)⟩

def orderRequest (i : Bool) (key : String) (nowMs : ℚ) : AppCall Bool String :=
  .request i ⟨fun _ => .answered, fun _ => .answered, .answered, .answered,
      .finished 201 (some key)⟩ 0 .answered nowMs nowMs
    ⟨"POST", "/events", none, some "alice", some key, some "10.0.0.1", some "\x7b\x7d"⟩

/-- One client asks now and half a second later, and again when its key has been dropped. -/
def threeOrders (t : ℕ) : AppCall Bool String :=
  if t = 0 then orderRequest false "a" 0 else if t = 1 then orderRequest true "b" 500
  else if t = 2 then .expire "10.0.0.1:alice:/api/events" 60500
  else if t = 3 then orderRequest true "c" 60500 else .tick 60500

end LaunchPad
