import LaunchPad.Proofs.RateLimit
import Mathlib.Data.Finset.Dedup
import Mathlib.Data.Finset.Order

/-!
# When to come back

A refused call leaves the tokens it found, so what it lacked has to flow in: the seconds it is told
are enough, and one less is not. Nothing but time passes on the key in between. Where Redis drops
it, the bucket had filled by then, which is what a bucket nobody has drawn from looks like.
-/

namespace LaunchPad

open Bucket Feed

/-- A call of `consume` or `reset` on the key. -/
def LimiterEvent.CallsOn (key : String) : LimiterEvent → Prop
  | .consume call => call.key = key
  | .reset key' _ => key' = key
  | .expire _ _ => False

/-- The same call, later. -/
def Consume.retried (call : Consume) (nowMs : ℚ) : Consume := { call with nowMs := nowMs }

/-- What the seconds a refused call is told are worth: enough, and where they are more than one not
one of them too many. -/
structure RetryAfterExact {S : Type} (strategy : IRateLimiterStrategy S)
    (expire : String → ℚ → S → S) (s : S) (call : Consume) : Prop where
  atLeast : 1 ≤ (strategy.consume call s).1.retryAfterSeconds
  sufficient : ∀ between nowMs, (∀ event ∈ between, ¬ event.CallsOn call.key) →
    call.nowMs + (strategy.consume call s).1.retryAfterSeconds * 1000 ≤ nowMs →
    (strategy.consume (call.retried nowMs) (endState (strategy.handle expire)
      (strategy.consume call s).2 between)).1.allowed = true
  minimal : 1 < (strategy.consume call s).1.retryAfterSeconds →
    ∀ between nowMs, (∀ event ∈ between, ¬ event.CallsOn call.key) →
    (∀ dropMs, .expire call.key dropMs ∈ between → dropMs ≤ nowMs) → call.nowMs ≤ nowMs →
    nowMs ≤ call.nowMs + ((strategy.consume call s).1.retryAfterSeconds - 1) * 1000 →
    (strategy.consume (call.retried nowMs) (endState (strategy.handle expire)
      (strategy.consume call s).2 between)).1.allowed = false

section Waiting

variable {S : Type} {options : TokenBucketOptions} {strategy : IRateLimiterStrategy S}
variable {expire : String → ℚ → S → S} {level : S → String → Option (Level ℚ)}

/-- Among the states a strategy goes through, a reset concerns its key only, and what is dropped has
filled. -/
structure Drops (options : TokenBucketOptions) (strategy : IRateLimiterStrategy S)
    (expire : String → ℚ → S → S) (level : S → String → Option (Level ℚ)) (Through : S → Prop) :
    Prop where
  handle : ∀ event s, Through s → Through (strategy.handle expire event s).2
  tokens_nonneg : ∀ s, Through s → ∀ key, ∀ l ∈ level s key, 0 ≤ l.tokens
  reset_other : ∀ key key' s, key ≠ key' → level (strategy.reset key s) key' = level s key'
  expire_other : ∀ key key' nowMs s, key ≠ key' → level (expire key nowMs s) key' = level s key'
  expire_own : ∀ key nowMs s, Through s → level (expire key nowMs s) key = level s key
    ∨ level (expire key nowMs s) key = none
      ∧ ∀ l ∈ level s key, options.capacity ≤ (nowMs / 1000 - l.since) * options.refillRate

variable {Through : S → Prop}

theorem Drops.endState (hdrops : Drops options strategy expire level Through) :
    ∀ (events : List LimiterEvent) {s : S}, Through s →
      Through (endState (strategy.handle expire) s events)
  | [], _, hs => hs
  | event :: events, s, hs => hdrops.endState events (hdrops.handle event s hs)

/-- A key is as it was left, or dropped once it was full. -/
def Left (options : TokenBucketOptions) (l : Level ℚ) (nowMs : ℚ) (stored : Option (Level ℚ)) :
    Prop :=
  stored = some l
    ∨ stored = none ∧ options.capacity ≤ (nowMs / 1000 - l.since) * options.refillRate

/-- Either way it holds the same tokens by now. -/
theorem Left.refilled_eq (hrate : 0 ≤ options.refillRate) {l : Level ℚ} (hl : 0 ≤ l.tokens)
    {nowMs : ℚ} {stored : Option (Level ℚ)} (h : Left options l nowMs stored) :
    refilled options.capacity options.refillRate stored (nowMs / 1000)
      = refilled options.capacity options.refillRate (some l) (nowMs / 1000) := by
  rcases h with rfl | ⟨rfl, hfull⟩
  · rfl
  · exact (refilled_eq_cap hrate hl hfull).symm

/-- While nobody calls on a key, it stays as it was left. -/
theorem Drops.left (hd : Draws options strategy level)
    (hdrops : Drops options strategy expire level Through) (hrate : 0 ≤ options.refillRate)
    {key : String} {l : Level ℚ} {nowMs : ℚ} :
    ∀ (between : List LimiterEvent) {s : S}, Through s → Left options l nowMs (level s key) →
      (∀ event ∈ between, ¬ event.CallsOn key) →
      (∀ dropMs, .expire key dropMs ∈ between → dropMs ≤ nowMs) →
      Left options l nowMs (level (Feed.endState (strategy.handle expire) s between) key)
  | [], _, _, hs, _, _ => hs
  | event :: between, s, hthrough, hs, hcalls, hdropMs => by
    refine hdrops.left hd hrate between (hdrops.handle event s hthrough) ?_
      (fun e he => hcalls e (List.mem_cons_of_mem _ he))
      (fun dropMs he => hdropMs dropMs (List.mem_cons_of_mem _ he))
    have hcall := hcalls event List.mem_cons_self
    rcases event with call | ⟨key', resetMs⟩ | ⟨key', dropMs⟩
    · have hlevel : level (strategy.consume call s).2 key = level s key := hd.other call s key hcall
      simpa only [IRateLimiterStrategy.handle, Prod.map_snd, id, hlevel] using hs
    · have hlevel : level (strategy.reset key' s) key = level s key :=
        hdrops.reset_other key' key s hcall
      simpa only [IRateLimiterStrategy.handle, hlevel] using hs
    · show Left options l nowMs (level (expire key' dropMs s) key)
      by_cases hkey : key' = key
      · subst hkey
        rcases hdrops.expire_own key' dropMs s hthrough with heq | ⟨hnone, hfull⟩
        · rwa [heq]
        rcases hs with hs | ⟨-, hfull⟩
        · -- dropped now: it was full then, and time has not gone back since
          have hle : dropMs ≤ nowMs := hdropMs dropMs List.mem_cons_self
          refine .inr ⟨hnone, (hfull l hs).trans ?_⟩
          refine mul_le_mul_of_nonneg_right ?_ hrate
          linarith [div_le_div_of_nonneg_right hle (by norm_num : (0 : ℚ) ≤ 1000)]
        · exact .inr ⟨hnone, hfull⟩
      · rwa [hdrops.expire_other key' key dropMs s hkey]

theorem Draws.refused (hd : Draws options strategy level) {call : Consume} {s : S}
    (h : (strategy.consume call s).1.allowed = false) :
    refilled options.capacity options.refillRate (level s call.key) call.nowSeconds < call.cost
      ∧ (strategy.consume call s).1.retryAfterSeconds
        = max 1 ⌈(call.cost - refilled options.capacity options.refillRate (level s call.key)
            call.nowSeconds) / options.refillRate⌉ := by
  have hlt : refilled options.capacity options.refillRate (level s call.key) call.nowSeconds
      < call.cost := by
    rw [← not_le, ← hd.allowed_iff, h]
    simp
  have hdecision := congrArg (fun d => d.2.2.2) (hd.decision call s)
  simp only [decisionOn, if_neg (not_le.2 hlt)] at hdecision
  exact ⟨hlt, hdecision⟩

/-- Later, the same call finds what the refused one left and the refill since. -/
theorem Draws.retried_iff (hd : Draws options strategy level) (hcap : 0 ≤ options.capacity)
    (hrate : 0 < options.refillRate) {call : Consume} {s s' : S}
    (hnonneg : ∀ l ∈ level s call.key, 0 ≤ l.tokens) (hcost : call.cost ≤ options.capacity)
    (hrefused : (strategy.consume call s).1.allowed = false) {nowMs : ℚ}
    (hleft : Left options (draw options.capacity options.refillRate (level s call.key)
      call.nowSeconds call.cost) nowMs (level s' call.key)) (hnow : call.nowMs ≤ nowMs) :
    (strategy.consume (call.retried nowMs) s').1.allowed = true
      ↔ (call.cost - refilled options.capacity options.refillRate (level s call.key)
          call.nowSeconds) / options.refillRate ≤ (nowMs - call.nowMs) / 1000 := by
  have htokens := draw_nonneg hcap hrate.le hnonneg call.nowSeconds call.cost
  have hle : call.nowSeconds ≤ nowMs / 1000 := div_le_div_of_nonneg_right hnow (by norm_num)
  calc (strategy.consume (call.retried nowMs) s').1.allowed = true
      ↔ call.cost ≤ refilled options.capacity options.refillRate
          (some (draw options.capacity options.refillRate (level s call.key) call.nowSeconds
            call.cost)) (nowMs / 1000) := by
        rw [hd.allowed_iff, ← hleft.refilled_eq hrate.le htokens]
        rfl
    _ ↔ call.cost - refilled options.capacity options.refillRate (level s call.key)
          call.nowSeconds ≤ (nowMs / 1000 - call.nowSeconds) * options.refillRate :=
        le_refilled_draw_iff (hd.refused hrefused).1 hcost hle
    _ ↔ _ := by rw [div_le_iff₀ hrate, sub_div, Consume.nowSeconds]

/-- A key that was dropped, at whatever time, is allowed all a bucket can hold. -/
theorem Draws.retried_dropped (hd : Draws options strategy level) {call : Consume} {s : S}
    (hcost : call.cost ≤ options.capacity) (nowMs : ℚ) (hs : level s call.key = none) :
    (strategy.consume (call.retried nowMs) s).1.allowed = true := by
  rw [hd.allowed_iff]
  show call.cost ≤ refilled options.capacity options.refillRate (level s call.key) _
  rwa [hs]

/-- The seconds round what the deficit takes up to whole ones, from one on. -/
theorem Draws.retryAfterExact (hd : Draws options strategy level)
    (hdrops : Drops options strategy expire level Through) (hcap : 0 ≤ options.capacity)
    (hrate : 0 < options.refillRate) {call : Consume} {s : S} (hs : Through s)
    (hcost : call.cost ≤ options.capacity)
    (hrefused : (strategy.consume call s).1.allowed = false) :
    RetryAfterExact strategy expire s call := by
  have hthrough : Through (strategy.consume call s).2 := hdrops.handle (.consume call) s hs
  have hnonneg := hdrops.tokens_nonneg s hs call.key
  obtain ⟨-, hretry⟩ := hd.refused hrefused
  have hatLeast : 1 ≤ (strategy.consume call s).1.retryAfterSeconds := by
    rw [hretry]
    exact le_max_left _ _
  refine ⟨hatLeast, fun between nowMs hcalls hnow => ?_,
    fun hmore between nowMs hcalls hdropMs hge hnow => ?_⟩
  · obtain ⟨lastMs, hlast⟩ := (between.map LimiterEvent.nowMs).toFinset.exists_le
    have hleft := hdrops.left hd hrate.le between hthrough (.inl (hd.own call s)) hcalls
      fun dropMs hmem => hlast dropMs (List.mem_toFinset.2 (List.mem_map_of_mem hmem))
    have hone : (1 : ℚ) ≤ (strategy.consume call s).1.retryAfterSeconds := by exact_mod_cast hatLeast
    have hceil : (call.cost - refilled options.capacity options.refillRate (level s call.key)
        call.nowSeconds) / options.refillRate ≤ (strategy.consume call s).1.retryAfterSeconds := by
      rw [hretry]
      exact (Int.le_ceil _).trans (by exact_mod_cast le_max_right _ _)
    rcases hleft with hstored | ⟨hnone, -⟩
    · rw [hd.retried_iff hcap hrate hnonneg hcost hrefused (.inl hstored) (by linarith)]
      linarith
    · exact hd.retried_dropped hcost nowMs hnone
  · have hleft := hdrops.left hd hrate.le between hthrough (.inl (hd.own call s)) hcalls hdropMs
    rw [← Bool.not_eq_true, hd.retried_iff hcap hrate hnonneg hcost hrefused hleft hge, not_le]
    -- more than one second was asked for, so the maximum is the rounded deficit
    rw [hretry] at hmore hnow
    have hceil := (max_eq_right_of_lt ((lt_max_iff.1 hmore).resolve_left (lt_irrefl 1)))
    rw [hceil] at hnow
    have hlt := Int.ceil_lt_add_one ((call.cost - refilled options.capacity options.refillRate
      (level s call.key) call.nowSeconds) / options.refillRate)
    linarith

end Waiting

/-- A process forgets nothing. -/
theorem drops_inMemory (options : TokenBucketOptions) (hcap : 0 ≤ options.capacity)
    (hrate : 0 ≤ options.refillRate) :
    Drops options (inMemoryTokenBucketStrategy options) (fun _ _ buckets => buckets)
      InMemoryTokenBucketStrategy.level
      fun buckets => ∀ key, ∀ l ∈ InMemoryTokenBucketStrategy.level buckets key, 0 ≤ l.tokens where
  handle event s hs := by
    rcases event with call | ⟨key', resetMs⟩ | ⟨key', dropMs⟩
    · exact (draws_inMemory options).tokens_nonneg hcap hrate hs call
    · intro key l hl
      by_cases hkey : key = key'
      · simp [IRateLimiterStrategy.handle, inMemoryTokenBucketStrategy, hkey,
          InMemoryTokenBucketStrategy.reset, InMemoryTokenBucketStrategy.level] at hl
      · have hl : l ∈ InMemoryTokenBucketStrategy.level s key := by
          simpa [IRateLimiterStrategy.handle, inMemoryTokenBucketStrategy, Function.update_of_ne hkey,
            InMemoryTokenBucketStrategy.reset, InMemoryTokenBucketStrategy.level] using hl
        exact hs key l hl
    · exact hs
  tokens_nonneg s hs := hs
  reset_other key key' s hkey := by
    simp [inMemoryTokenBucketStrategy, InMemoryTokenBucketStrategy.reset,
      InMemoryTokenBucketStrategy.level, Function.update_of_ne (Ne.symm hkey)]
  expire_other _ _ _ _ _ := rfl
  expire_own _ _ _ _ := .inl rfl

theorem drops_redis (options : TokenBucketOptions) (hcap : 0 < options.capacity)
    (hrate : 0 < options.refillRate) :
    Drops options (redisTokenBucketStrategy options) RedisTokenBucketStrategy.expire
      RedisTokenBucketStrategy.level (Lasting options) where
  handle event s hs := by
    rcases event with call | ⟨key', resetMs⟩ | ⟨key', dropMs⟩
    · exact hs.consume hcap.le hrate.le call
    · exact hs.erase key'
    · show Lasting options (RedisTokenBucketStrategy.expire key' dropMs s)
      rcases expire_eq key' dropMs s with heq | ⟨heq, -⟩ <;> rw [heq]
      · exact hs
      · exact hs.erase key'
  tokens_nonneg s hs := hs.tokens_nonneg
  reset_other key key' s hkey := (level_erase s key key').trans (if_neg (Ne.symm hkey))
  expire_other key key' nowMs s hkey := by
    rcases expire_eq key nowMs s with heq | ⟨heq, -⟩ <;> rw [heq]
    rw [level_erase, if_neg (Ne.symm hkey)]
  expire_own key nowMs s hs := by
    rcases expire_eq key nowMs s with heq | ⟨heq, bucket, hb, hold⟩ <;> rw [heq]
    · exact .inl rfl
    · refine .inr ⟨by rw [level_erase, if_pos rfl], fun l hl => ?_⟩
      obtain rfl : (⟨bucket.tokens, bucket.lastUpdated⟩ : Level ℚ) = l := by
        simpa [RedisTokenBucketStrategy.level, hb] using hl
      exact hs.full_of_expired hcap hrate hb hold

/-- Whatever was called before, at whatever clocks, a refused call is told the least number of whole
seconds, from one on, that is enough. -/
theorem retry_after_exact (options : TokenBucketOptions) (hcap : 0 < options.capacity)
    (hrate : 0 < options.refillRate) (history : List LimiterEvent) (call : Consume)
    (hcost : call.cost ≤ options.capacity) :
    (((inMemoryTokenBucketStrategy options).consume call
        (endState ((inMemoryTokenBucketStrategy options).handle fun _ _ buckets => buckets)
          (fun _ => none) history)).1.allowed = false →
      RetryAfterExact (inMemoryTokenBucketStrategy options) (fun _ _ buckets => buckets)
        (endState ((inMemoryTokenBucketStrategy options).handle fun _ _ buckets => buckets)
          (fun _ => none) history) call)
      ∧ (((redisTokenBucketStrategy options).consume call
          (endState ((redisTokenBucketStrategy options).handle RedisTokenBucketStrategy.expire)
            (fun _ => none) history)).1.allowed = false →
        RetryAfterExact (redisTokenBucketStrategy options) RedisTokenBucketStrategy.expire
          (endState ((redisTokenBucketStrategy options).handle RedisTokenBucketStrategy.expire)
            (fun _ => none) history) call) := by
  have hm := drops_inMemory options hcap.le hrate.le
  have hr := drops_redis options hcap hrate
  constructor
  · refine (draws_inMemory options).retryAfterExact hm hcap.le hrate ?_ hcost
    exact hm.endState history (by simp [InMemoryTokenBucketStrategy.level])
  · refine (draws_redis options).retryAfterExact hr hcap.le hrate ?_ hcost
    exact hr.endState history lasting_empty

/-- Two seconds for the five tokens missing, while the script serves another client. -/
theorem retry_after_exact_drained :
    RetryAfterExact (inMemoryTokenBucketStrategy ⟨10, 3⟩) (fun _ _ buckets => buckets)
        (endState ((inMemoryTokenBucketStrategy ⟨10, 3⟩).handle fun _ _ buckets => buckets)
          (fun _ => none) [.consume ⟨"a", 10, 0⟩, .consume ⟨"b", 1, 0⟩]) ⟨"a", 5, 0⟩
      ∧ RetryAfterExact (redisTokenBucketStrategy ⟨10, 3⟩) RedisTokenBucketStrategy.expire
        (endState ((redisTokenBucketStrategy ⟨10, 3⟩).handle RedisTokenBucketStrategy.expire)
          (fun _ => none) [.consume ⟨"a", 10, 0⟩, .consume ⟨"b", 1, 0⟩]) ⟨"a", 5, 0⟩ := by
  have h := retry_after_exact ⟨10, 3⟩ (by norm_num) (by norm_num)
    [.consume ⟨"a", 10, 0⟩, .consume ⟨"b", 1, 0⟩] ⟨"a", 5, 0⟩ (by norm_num)
  exact ⟨h.1 (by decide +kernel), h.2 (by decide +kernel)⟩

end LaunchPad
