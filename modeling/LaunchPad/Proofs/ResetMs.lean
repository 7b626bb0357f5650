import LaunchPad.Proofs.RetryAfter

/-!
# When the bucket is full again

What a call leaves fills at the refill rate, so the time to a full bucket is the milliseconds in
which the missing tokens flow in, rounded up. The script tells every call that time. A process tells
it to the calls it allows; a refused one is told the seconds until its own cost is there, which is
the time to a full bucket only where the two round to the same.
-/

namespace LaunchPad

open Bucket Feed

/-- What `resetMs` promises: with no call on the key in between, it is the first whole number of
milliseconds after which a call for all a bucket can hold is let through. -/
structure ResetMsExact {S : Type} (options : TokenBucketOptions) (strategy : IRateLimiterStrategy S)
    (expire : String → ℚ → S → S) (s : S) (call : Consume) : Prop where
  nonneg : 0 ≤ (strategy.consume call s).1.resetMs
  full_iff : ∀ (n : ℕ) between, (∀ event ∈ between, ¬ event.CallsOn call.key) →
    (∀ dropMs, .expire call.key dropMs ∈ between → dropMs ≤ call.nowMs + n) →
    ((strategy.consume ⟨call.key, options.capacity, call.nowMs + n⟩ (endState
        (strategy.handle expire) (strategy.consume call s).2 between)).1.allowed = true
      ↔ (strategy.consume call s).1.resetMs ≤ n)

/-- The time to a full bucket, from the tokens there are. -/
def timeToFullMs (options : TokenBucketOptions) (tokens : ℚ) : ℤ :=
  ⌈(options.capacity - tokens) / options.refillRate * 1000⌉

/-- A call finds enough, or what it lacks for its cost and what it lacks for a full bucket flow in
within the same last millisecond of a second. -/
def FullWithCost (options : TokenBucketOptions) (current cost : ℚ) : Prop :=
  cost ≤ current ∨ ∃ seconds : ℤ,
    (seconds - 1 < (cost - current) / options.refillRate
      ∧ (cost - current) / options.refillRate ≤ seconds)
    ∧ seconds - 1 / 1000 < (options.capacity - current) / options.refillRate
    ∧ (options.capacity - current) / options.refillRate ≤ seconds

section Filling

variable {S : Type} {options : TokenBucketOptions} {strategy : IRateLimiterStrategy S}
variable {expire : String → ℚ → S → S} {level : S → String → Option (Level ℚ)}
variable {Through : S → Prop}

/-- What a call leaves to a key. -/
def leftBy (options : TokenBucketOptions) (stored : Option (Level ℚ)) (call : Consume) : Level ℚ :=
  draw options.capacity options.refillRate stored call.nowSeconds call.cost

/-- A call for a full bucket is let through once the time to full is over. -/
theorem Draws.full_iff (hd : Draws options strategy level)
    (hdrops : Drops options strategy expire level Through) (hcap : 0 ≤ options.capacity)
    (hrate : 0 < options.refillRate) {call : Consume} {s : S} (hs : Through s) (n : ℕ)
    (between : List LimiterEvent) (hcalls : ∀ event ∈ between, ¬ event.CallsOn call.key)
    (hdropMs : ∀ dropMs, .expire call.key dropMs ∈ between → dropMs ≤ call.nowMs + n) :
    (strategy.consume ⟨call.key, options.capacity, call.nowMs + n⟩ (endState
        (strategy.handle expire) (strategy.consume call s).2 between)).1.allowed = true
      ↔ timeToFullMs options (leftBy options (level s call.key) call).tokens ≤ n := by
  have hthrough : Through (strategy.consume call s).2 := hdrops.handle (.consume call) s hs
  have htokens : 0 ≤ (leftBy options (level s call.key) call).tokens :=
    draw_nonneg hcap hrate.le (hdrops.tokens_nonneg s hs call.key) _ _
  have hleft := hdrops.left hd hrate.le between hthrough (.inl (hd.own call s)) hcalls hdropMs
  have hfilled := hleft.refilled_eq (l := leftBy options (level s call.key) call) hrate.le htokens
  have hle : call.nowSeconds ≤ (call.nowMs + n) / 1000 :=
    div_le_div_of_nonneg_right (le_add_of_nonneg_right n.cast_nonneg) (by norm_num)
  calc _ ↔ options.capacity ≤ refilled options.capacity options.refillRate
          (some (leftBy options (level s call.key) call)) ((call.nowMs + n) / 1000) := by
        rw [hd.allowed_iff, ← hfilled]
        rfl
    _ ↔ (options.capacity - (leftBy options (level s call.key) call).tokens) / options.refillRate
          ≤ (call.nowMs + n) / 1000 - call.nowSeconds :=
        cap_le_refilled_draw_iff hrate hle
    _ ↔ (options.capacity - (leftBy options (level s call.key) call).tokens) / options.refillRate
          * 1000 ≤ n := by
        rw [Consume.nowSeconds, ← sub_div, add_sub_cancel_left, le_div_iff₀ (by norm_num)]
    _ ↔ _ := by
        rw [timeToFullMs, Int.ceil_le]
        norm_cast

/-- So `resetMs` is exact where it is that time, and only there. -/
theorem Draws.resetMsExact_iff (hd : Draws options strategy level)
    (hdrops : Drops options strategy expire level Through) (hcap : 0 ≤ options.capacity)
    (hrate : 0 < options.refillRate) {call : Consume} {s : S} (hs : Through s)
    (hcost : 0 ≤ call.cost) :
    ResetMsExact options strategy expire s call ↔ (strategy.consume call s).1.resetMs
      = timeToFullMs options (leftBy options (level s call.key) call).tokens := by
  have hwithin : (leftBy options (level s call.key) call).tokens ≤ options.capacity := by
    refine (sub_le_self _ ?_).trans (refilled_le _ _)
    unfold taken
    split
    · exact hcost
    · exact le_rfl
  have hfull : 0 ≤ timeToFullMs options (leftBy options (level s call.key) call).tokens :=
    Int.ceil_nonneg (mul_nonneg (div_nonneg (sub_nonneg.2 hwithin) hrate.le) (by norm_num))
  constructor
  · intro h
    -- asked at either of the two times, both tell whether the bucket is full
    have hat : ∀ n : ℕ, timeToFullMs options (leftBy options (level s call.key) call).tokens ≤ n
        ↔ (strategy.consume call s).1.resetMs ≤ n := fun n =>
      (hd.full_iff hdrops hcap hrate hs n [] nofun nofun).symm.trans
        (h.full_iff n [] nofun nofun)
    have hreset := hat (strategy.consume call s).1.resetMs.toNat
    have htime := hat (timeToFullMs options (leftBy options (level s call.key) call).tokens).toNat
    rw [Int.toNat_of_nonneg h.nonneg] at hreset
    rw [Int.toNat_of_nonneg hfull] at htime
    exact le_antisymm (htime.1 le_rfl) (hreset.2 le_rfl)
  · intro h
    refine ⟨h ▸ hfull, fun n between hcalls hdropMs => ?_⟩
    rw [hd.full_iff hdrops hcap hrate hs n between hcalls hdropMs, h]

end Filling

theorem leftBy_tokens (options : TokenBucketOptions) (stored : Option (Level ℚ)) (call : Consume) :
    (leftBy options stored call).tokens
      = if call.cost ≤ refilled options.capacity options.refillRate stored call.nowSeconds then
          refilled options.capacity options.refillRate stored call.nowSeconds - call.cost
        else refilled options.capacity options.refillRate stored call.nowSeconds := by
  simp only [leftBy, draw, taken]
  split
  · rfl
  · rw [sub_zero]

theorem resetMs_redis (options : TokenBucketOptions) (call : Consume)
    (redis : RedisTokenBucketStrategy.Keyspace) :
    ((redisTokenBucketStrategy options).consume call redis).1.resetMs = timeToFullMs options
      (leftBy options (RedisTokenBucketStrategy.level redis call.key) call).tokens := by
  rw [leftBy_tokens]
  simp only [redisTokenBucketStrategy, RedisTokenBucketStrategy.consume,
    RedisTokenBucketStrategy.luaTokenBucket, ge_iff_le, current_redis]
  split <;> rfl

theorem resetMs_inMemory (options : TokenBucketOptions) (call : Consume)
    (buckets : InMemoryTokenBucketStrategy.Buckets) :
    ((inMemoryTokenBucketStrategy options).consume call buckets).1.resetMs
      = if call.cost ≤ refilled options.capacity options.refillRate
            (InMemoryTokenBucketStrategy.level buckets call.key) call.nowSeconds then
          timeToFullMs options (leftBy options (InMemoryTokenBucketStrategy.level buckets call.key)
            call).tokens
        else max 1 ⌈(call.cost - refilled options.capacity options.refillRate
            (InMemoryTokenBucketStrategy.level buckets call.key) call.nowSeconds)
              / options.refillRate⌉ * 1000 := by
  rw [leftBy_tokens]
  simp only [inMemoryTokenBucketStrategy, InMemoryTokenBucketStrategy.consume, ge_iff_le,
    current_inMemory]
  split <;> rfl

/-- Whole seconds to a cost are the whole milliseconds to a full bucket where the two fall due
together. -/
theorem wait_eq_timeToFullMs_iff (options : TokenBucketOptions) (hrate : 0 < options.refillRate)
    {current cost : ℚ} (hlt : current < cost) :
    max 1 ⌈(cost - current) / options.refillRate⌉ * 1000 = timeToFullMs options current
      ↔ FullWithCost options current cost := by
  have hpos : 1 ≤ ⌈(cost - current) / options.refillRate⌉ :=
    Int.one_le_ceil_iff.2 (div_pos (sub_pos.2 hlt) hrate)
  rw [max_eq_right hpos, timeToFullMs, FullWithCost, or_iff_right (not_le.2 hlt), eq_comm,
    Int.ceil_eq_iff]
  push_cast
  constructor
  · rintro ⟨hlow, hhigh⟩
    refine ⟨⌈(cost - current) / options.refillRate⌉, ⟨?_, Int.le_ceil _⟩, ?_, ?_⟩
    · linarith [Int.ceil_lt_add_one ((cost - current) / options.refillRate)]
    · linarith
    · linarith
  · rintro ⟨seconds, hcost, hlow, hhigh⟩
    rw [Int.ceil_eq_iff.2 hcost]
    exact ⟨by linarith, by linarith⟩

/-- Whatever was called before, Redis tells every call the least whole milliseconds to a full
bucket; a process does so if and only if it allows the call, or what a full bucket lacks takes as
many whole seconds as what the call lacks, up to a millisecond. -/
theorem reset_ms_exact_iff (options : TokenBucketOptions) (hcap : 0 < options.capacity)
    (hrate : 0 < options.refillRate) (history : List LimiterEvent) (call : Consume)
    (hcost : 0 ≤ call.cost) :
    (ResetMsExact options (inMemoryTokenBucketStrategy options) (fun _ _ buckets => buckets)
        (endState ((inMemoryTokenBucketStrategy options).handle fun _ _ buckets => buckets)
          (fun _ => none) history) call
      ↔ FullWithCost options (refilled options.capacity options.refillRate
          (InMemoryTokenBucketStrategy.level
            (endState ((inMemoryTokenBucketStrategy options).handle fun _ _ buckets => buckets)
              (fun _ => none) history) call.key) call.nowSeconds) call.cost)
      ∧ ResetMsExact options (redisTokenBucketStrategy options) RedisTokenBucketStrategy.expire
          (endState ((redisTokenBucketStrategy options).handle RedisTokenBucketStrategy.expire)
            (fun _ => none) history) call := by
  have hm := drops_inMemory options hcap.le hrate.le
  have hr := drops_redis options hcap hrate
  constructor
  · rw [(draws_inMemory options).resetMsExact_iff hm hcap.le hrate
      (hm.endState history (by simp [InMemoryTokenBucketStrategy.level])) hcost, resetMs_inMemory]
    split
    · rename_i henough
      exact ⟨fun _ => .inl henough, fun _ => rfl⟩
    · rename_i hlack
      rw [leftBy_tokens, if_neg hlack]
      exact wait_eq_timeToFullMs_iff options hrate (not_le.1 hlack)
  · exact ((draws_redis options).resetMsExact_iff hr hcap.le hrate
      (hr.endState history lasting_empty) hcost).2 (resetMs_redis options call _)

/-- A bucket of three is emptied for half a second, and its owner asks for all of it. -/
theorem reset_ms_exact_emptied :
    ResetMsExact ⟨3, 2⟩ (inMemoryTokenBucketStrategy ⟨3, 2⟩) (fun _ _ buckets => buckets)
        (endState ((inMemoryTokenBucketStrategy ⟨3, 2⟩).handle fun _ _ buckets => buckets)
          (fun _ => none) [.consume ⟨"a", 3, 0⟩, .consume ⟨"b", 1, 0⟩]) ⟨"a", 3, 500⟩ := by
  refine (reset_ms_exact_iff ⟨3, 2⟩ (by norm_num) (by norm_num)
    [.consume ⟨"a", 3, 0⟩, .consume ⟨"b", 1, 0⟩] ⟨"a", 3, 500⟩ (by norm_num)).1.2 ?_
  have hcurrent : refilled 3 2 (InMemoryTokenBucketStrategy.level
      (endState ((inMemoryTokenBucketStrategy ⟨3, 2⟩).handle fun _ _ buckets => buckets)
        (fun _ => none) [.consume ⟨"a", 3, 0⟩, .consume ⟨"b", 1, 0⟩]) "a")
      (Consume.nowSeconds ⟨"a", 3, 500⟩) = 1 := by decide +kernel
  refine .inr ⟨1, ?_⟩
  simp only [hcurrent]
  norm_num

/-- An emptied bucket of ten refuses a call for one token: it is told a second, and is full after
ten. -/
theorem reset_ms_not_time_to_full :
    ((inMemoryTokenBucketStrategy ⟨10, 1⟩).consume ⟨"k", 1, 0⟩
        (endState ((inMemoryTokenBucketStrategy ⟨10, 1⟩).handle fun _ _ buckets => buckets)
          (fun _ => none) [.consume ⟨"k", 10, 0⟩])).1.resetMs = 1000
      ∧ ¬ ResetMsExact ⟨10, 1⟩ (inMemoryTokenBucketStrategy ⟨10, 1⟩) (fun _ _ buckets => buckets)
          (endState ((inMemoryTokenBucketStrategy ⟨10, 1⟩).handle fun _ _ buckets => buckets)
            (fun _ => none) [.consume ⟨"k", 10, 0⟩]) ⟨"k", 1, 0⟩ := by
  have htold : ((inMemoryTokenBucketStrategy ⟨10, 1⟩).consume ⟨"k", 1, 0⟩
      (endState ((inMemoryTokenBucketStrategy ⟨10, 1⟩).handle fun _ _ buckets => buckets)
        (fun _ => none) [.consume ⟨"k", 10, 0⟩])).1.resetMs = 1000 := by decide +kernel
  refine ⟨htold, fun h => ?_⟩
  have hfull := (h.full_iff 1000 [] nofun nofun).2 (by rw [htold]; rfl)
  revert hfull
  decide +kernel

end LaunchPad
