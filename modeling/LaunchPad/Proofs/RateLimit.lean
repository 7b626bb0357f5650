import LaunchPad.Lib.Bucket
import LaunchPad.RateLimit

/-!
# What a limiter lets through

Either strategy is a token bucket for each key: `Draws`. So a key's allowed calls cost no more than
a full bucket and what flows in, and for a clock that never goes back that is the capacity and the
refill of the time passed. Clocks of several instances go back against each other. The script notes
the time it is given also where that is the earlier one, and refills the same seconds again.
-/

namespace LaunchPad

open Bucket Feed

def Consume.nowSeconds (call : Consume) : ℚ := call.nowMs / 1000

/-- What the two strategies are to agree on. -/
def RateLimitResult.decision (r : RateLimitResult) : Bool × ℚ × ℚ × ℤ :=
  (r.allowed, r.limit, r.remaining, r.retryAfterSeconds)

/-- The decision on a cost, from the tokens there are. -/
def decisionOn (options : TokenBucketOptions) (current cost : ℚ) : Bool × ℚ × ℚ × ℤ :=
  if cost ≤ current then (true, options.capacity, ⌊current - cost⌋, 0)
  else (false, options.capacity, ⌊current⌋, max 1 ⌈(cost - current) / options.refillRate⌉)

/-- The strategy keeps a token bucket for each key, and decides from what it holds. -/
structure Draws {S : Type} (options : TokenBucketOptions) (strategy : IRateLimiterStrategy S)
    (level : S → String → Option (Level ℚ)) : Prop where
  decision : ∀ call s, (strategy.consume call s).1.decision = decisionOn options
    (refilled options.capacity options.refillRate (level s call.key) call.nowSeconds) call.cost
  own : ∀ call s, level (strategy.consume call s).2 call.key = some
    (draw options.capacity options.refillRate (level s call.key) call.nowSeconds call.cost)
  other : ∀ call s key, call.key ≠ key → level (strategy.consume call s).2 key = level s key

section Levels

variable (options : TokenBucketOptions)

def InMemoryTokenBucketStrategy.level (buckets : Buckets) (key : String) : Option (Level ℚ) :=
  (buckets key).map fun bucket => ⟨bucket.tokens, bucket.lastRefillMs / 1000⟩

def RedisTokenBucketStrategy.level (redis : Keyspace) (key : String) : Option (Level ℚ) :=
  (redis (redisKey key)).map fun bucket => ⟨bucket.tokens, bucket.lastUpdated⟩

theorem RedisTokenBucketStrategy.redisKey_inj {key key' : String} :
    redisKey key = redisKey key' ↔ key = key' := String.append_right_inj _

section InMemory

open InMemoryTokenBucketStrategy

/-- What the bucket of a call holds. -/
theorem current_inMemory (call : Consume) (buckets : Buckets) :
    min options.capacity (((buckets call.key).getD ⟨options.capacity, call.nowMs⟩).tokens
      + max 0 ((call.nowMs - ((buckets call.key).getD ⟨options.capacity, call.nowMs⟩).lastRefillMs)
        / 1000) * options.refillRate)
      = refilled options.capacity options.refillRate (level buckets call.key) call.nowSeconds := by
  rcases h : buckets call.key with _ | bucket <;>
    simp [level, refilled, h, Consume.nowSeconds, sub_div]

theorem draws_inMemory :
    Draws options (inMemoryTokenBucketStrategy options) InMemoryTokenBucketStrategy.level where
  decision call s := by
    simp only [inMemoryTokenBucketStrategy, InMemoryTokenBucketStrategy.consume, decisionOn,
      ge_iff_le, current_inMemory]
    split <;> rfl
  own call s := by
    simp only [inMemoryTokenBucketStrategy, InMemoryTokenBucketStrategy.consume, ge_iff_le,
      current_inMemory, draw, taken]
    split <;> simp [level, Consume.nowSeconds]
  other call s key hkey := by
    simp only [inMemoryTokenBucketStrategy, InMemoryTokenBucketStrategy.consume]
    split <;> simp [level, Function.update_of_ne (Ne.symm hkey)]

end InMemory

section Redis

open RedisTokenBucketStrategy

theorem current_redis (call : Consume) (redis : Keyspace) :
    min options.capacity ((redis (redisKey call.key)).elim options.capacity Hash.tokens
      + max 0 (call.nowMs / 1000 - (redis (redisKey call.key)).elim (call.nowMs / 1000)
        Hash.lastUpdated) * options.refillRate)
      = refilled options.capacity options.refillRate (level redis call.key) call.nowSeconds := by
  rcases h : redis (redisKey call.key) with _ | bucket <;>
    simp [level, refilled, h, Consume.nowSeconds]

theorem draws_redis : Draws options (redisTokenBucketStrategy options) level where
  decision call s := by
    simp only [redisTokenBucketStrategy, RedisTokenBucketStrategy.consume, luaTokenBucket,
      decisionOn, ge_iff_le, current_redis]
    split <;> simp [RateLimitResult.decision]
  own call s := by
    simp only [redisTokenBucketStrategy, RedisTokenBucketStrategy.consume, luaTokenBucket,
      ge_iff_le, current_redis, draw, taken]
    split <;> simp [level, Consume.nowSeconds]
  other call s key hkey := by
    have hne : redisKey key ≠ redisKey call.key := fun h => hkey (redisKey_inj.1 h).symm
    simp only [redisTokenBucketStrategy, RedisTokenBucketStrategy.consume, luaTokenBucket]
    split <;> simp [level, Function.update_of_ne hne]

end Redis

end Levels

/-! ## The rate -/

/-- What the allowed calls of a log cost. -/
def allowedCost (log : List (Consume × RateLimitResult)) : ℚ :=
  ((log.filter fun p => p.2.allowed).map fun p => p.1.cost).sum

/-- The calls on one key. -/
def onKey (key : String) (calls : List Consume) : List Consume := calls.filter fun c => c.key = key

/-- The rate a limiter that starts empty holds the calls on a key to: what it stores is between
nothing and the capacity, any stretch of them costs at most the capacity and the refill of its time,
and other keys change neither the answers nor what is stored. -/
structure HoldsRate {S : Type} (options : TokenBucketOptions) (strategy : IRateLimiterStrategy S)
    (tokens : S → String → Option ℚ) (s₀ : S) (key : String) (calls : List Consume) : Prop where
  stored : ∀ before, before <+: calls →
    ∀ n ∈ tokens (endState strategy.consume s₀ before) key, 0 ≤ n ∧ n ≤ options.capacity
  stretch : ∀ before log after first last,
    (answers strategy.consume s₀ calls).filter (fun p => p.1.key = key) = before ++ log ++ after →
    log.head? = some first → log.getLast? = some last →
    allowedCost log
      ≤ options.capacity + options.refillRate * ((last.1.nowMs - first.1.nowMs) / 1000)
  answers_alone : (answers strategy.consume s₀ calls).filter (fun p => p.1.key = key)
    = answers strategy.consume s₀ (onKey key calls)
  stored_alone : tokens (endState strategy.consume s₀ calls) key
    = tokens (endState strategy.consume s₀ (onKey key calls)) key

section Rate

variable {S : Type} {options : TokenBucketOptions} {strategy : IRateLimiterStrategy S}
variable {level : S → String → Option (Level ℚ)}

namespace Draws

variable (hd : Draws options strategy level)
include hd

theorem allowed_iff (call : Consume) (s : S) :
    (strategy.consume call s).1.allowed = true ↔ call.cost
      ≤ refilled options.capacity options.refillRate (level s call.key) call.nowSeconds := by
  have h := congrArg Prod.fst (hd.decision call s)
  simp only [RateLimitResult.decision, decisionOn] at h
  rw [h]
  split <;> simp [*]

/-- A call overdraws no key. -/
theorem tokens_nonneg (hcap : 0 ≤ options.capacity) (hrate : 0 ≤ options.refillRate) {s : S}
    (hs : ∀ key, ∀ l ∈ level s key, 0 ≤ l.tokens) (call : Consume) (key : String) :
    ∀ l ∈ level (strategy.consume call s).2 key, 0 ≤ l.tokens := by
  intro l hl
  by_cases hkey : call.key = key
  · subst hkey
    rw [hd.own] at hl
    obtain rfl := Option.some.inj hl
    exact draw_nonneg hcap hrate (hs call.key) _ _
  · rw [hd.other _ _ _ hkey] at hl
    exact hs key l hl

theorem endState_within (hcap : 0 ≤ options.capacity) (hrate : 0 ≤ options.refillRate)
    (key : String) : ∀ (calls : List Consume) {s : S}, (∀ call ∈ onKey key calls, 0 ≤ call.cost) →
      Within options.capacity (level s key) →
      Within options.capacity (level (endState strategy.consume s calls) key)
  | [], _, _, hs => hs
  | call :: calls, s, hcost, hs => by
    refine endState_within hcap hrate key calls (fun c hc => hcost c ?_) ?_
    · exact ((List.sublist_cons_self call calls).filter _).subset hc
    by_cases hkey : call.key = key
    · subst hkey
      rw [hd.own]
      exact within_draw hcap hrate hs _ (hcost call (by simp [onKey]))
    · rwa [hd.other call s key hkey]

/-- The allowed calls on a key take from its bucket. -/
theorem allowedCost_answers (key : String) :
    ∀ (calls : List Consume) (s : S), (∀ call ∈ calls, call.key = key) →
      allowedCost (answers strategy.consume s calls) = total options.capacity options.refillRate
        (level s key) (calls.map fun call => (call.nowSeconds, call.cost))
  | [], _, _ => rfl
  | call :: calls, s, hkey => by
    have ih := allowedCost_answers key calls (strategy.consume call s).2
      fun c hc => hkey c (List.mem_cons_of_mem _ hc)
    obtain rfl := hkey call List.mem_cons_self
    rw [hd.own] at ih
    rw [List.map_cons, total, ← ih, taken]
    have hallow := hd.allowed_iff call s
    split
    · simp [answers, allowedCost, hallow.2 ‹_›]
    · simp [answers, allowedCost, mt hallow.1 ‹_›]

/-- A stretch of calls on a key, from any bucket that is not overdrawn. -/
theorem allowedCost_le (hcap : 0 ≤ options.capacity) (hrate : 0 ≤ options.refillRate) {key : String}
    {calls : List Consume} {s : S} {first last : Consume} (hkey : ∀ call ∈ calls, call.key = key)
    (hs : Within options.capacity (level s key))
    (htimes : calls.Pairwise fun a b => a.nowMs ≤ b.nowMs) (hfirst : calls.head? = some first)
    (hlast : calls.getLast? = some last) :
    allowedCost (answers strategy.consume s calls)
      ≤ options.capacity + options.refillRate * ((last.nowMs - first.nowMs) / 1000) := by
  obtain ⟨rest, rfl⟩ : ∃ rest, calls = first :: rest := List.head?_eq_some_iff.1 hfirst
  rw [hd.allowedCost_answers key _ s hkey, List.map_cons]
  refine (total_cons_le hcap hrate (fun l hl => (hs l hl).1) _ _ _).trans ?_
  have hsort : (first.nowSeconds :: rest.map Consume.nowSeconds).Pairwise (· ≤ ·) := by
    rw [← List.map_cons, List.pairwise_map]
    exact htimes.imp fun h => div_le_div_of_nonneg_right h (by norm_num)
  have hend : last.nowSeconds ∈ (first.nowSeconds :: rest.map Consume.nowSeconds).getLast? := by
    rw [← List.map_cons, List.getLast?_map, hlast]
    rfl
  have hin : inflows options.capacity options.refillRate _ _ ≤ _ := inflows_le hrate _ hsort _ hend
  simp only [List.map_map, Function.comp_def]
  have hsec : (last.nowMs - first.nowMs) / 1000 = last.nowSeconds - first.nowSeconds := by
    simp [Consume.nowSeconds, sub_div]
  rw [hsec, mul_comm]
  exact add_le_add_right hin _

theorem holdsRate {C : Type} {cell : S → String → C} {tokens : S → String → Option ℚ} {s₀ : S}
    (hcell : Cellwise strategy.consume cell Consume.key)
    (htokens : ∀ s key, tokens s key = (level s key).map Level.tokens)
    (hread : ∀ s s' key, cell s key = cell s' key → tokens s key = tokens s' key) {key : String}
    (hempty : level s₀ key = none) (hcap : 0 ≤ options.capacity) (hrate : 0 ≤ options.refillRate)
    {calls : List Consume} (hcosts : ∀ call ∈ onKey key calls, 0 ≤ call.cost)
    (htimes : (onKey key calls).Pairwise fun a b => a.nowMs ≤ b.nowMs) :
    HoldsRate options strategy tokens s₀ key calls where
  stored before hpre n hn := by
    rw [htokens, Option.mem_map] at hn
    obtain ⟨l, hl, rfl⟩ := hn
    refine hd.endState_within hcap hrate key before (fun c hc => hcosts c ?_) ?_ l hl
    · exact (hpre.sublist.filter _).subset hc
    · rw [hempty]
      exact within_none
  stretch before log after first last heq hfirst hlast := by
    rw [(hcell.filter key calls rfl).1] at heq
    have hcalls : onKey key calls
        = before.map Prod.fst ++ log.map Prod.fst ++ after.map Prod.fst := by
      have h := congrArg (List.map Prod.fst) heq
      rwa [map_fst_answers, List.map_append, List.map_append] at h
    have hlog : (log.map Prod.fst).Sublist (onKey key calls) := by
      rw [hcalls]
      exact (List.sublist_append_right _ _).trans (List.sublist_append_left _ _)
    have hbefore : (before.map Prod.fst).Sublist (onKey key calls) := by
      rw [hcalls, List.append_assoc]
      exact List.sublist_append_left _ _
    have hkey : ∀ call ∈ log.map Prod.fst, call.key = key := fun call hc => by
      simpa [onKey] using (List.mem_filter.1 (hlog.subset hc)).2
    have hwithin : Within options.capacity
        (level (endState strategy.consume s₀ (before.map Prod.fst)) key) := by
      refine hd.endState_within hcap hrate key _ (fun c hc => hcosts c ?_) ?_
      · exact hbefore.subset (List.mem_of_mem_filter hc)
      · rw [hempty]
        exact within_none
    rw [answers_stretch heq]
    exact hd.allowedCost_le hcap hrate hkey hwithin (htimes.sublist hlog) (by simp [hfirst])
      (by simp [hlast])
  answers_alone := (hcell.filter key calls rfl).1
  stored_alone := hread _ _ _ (hcell.filter key calls rfl).2

end Draws

end Rate

theorem cellwise_inMemory (options : TokenBucketOptions) :
    Cellwise (inMemoryTokenBucketStrategy options).consume (fun buckets key => buckets key)
      Consume.key where
  other call s key hkey := by
    simp only [inMemoryTokenBucketStrategy, InMemoryTokenBucketStrategy.consume]
    split <;> simp [Function.update_of_ne (Ne.symm hkey)]
  answer call s s' h := by
    simp only [inMemoryTokenBucketStrategy, InMemoryTokenBucketStrategy.consume, h]
    split <;> rfl
  own call s s' h := by
    simp only [inMemoryTokenBucketStrategy, InMemoryTokenBucketStrategy.consume, h]
    split <;> simp

open RedisTokenBucketStrategy in
theorem cellwise_redis (options : TokenBucketOptions) :
    Cellwise (redisTokenBucketStrategy options).consume (fun redis key => redis (redisKey key))
      Consume.key where
  other call s key hkey := by
    have hne : redisKey key ≠ redisKey call.key := fun h => hkey (redisKey_inj.1 h).symm
    simp [redisTokenBucketStrategy, RedisTokenBucketStrategy.consume, Function.update_of_ne hne]
  answer call s s' h := by simp only [redisTokenBucketStrategy, RedisTokenBucketStrategy.consume, h]
  own call s s' h := by simp [redisTokenBucketStrategy, RedisTokenBucketStrategy.consume, h]

/-- Both strategies hold the calls on a key to the rate, if its clock never goes back and no cost is
negative, whatever is called on other keys. -/
theorem rate_held (options : TokenBucketOptions) (hcap : 0 < options.capacity)
    (hrate : 0 < options.refillRate) (key : String) (calls : List Consume)
    (hcosts : ∀ call ∈ onKey key calls, 0 ≤ call.cost)
    (htimes : (onKey key calls).Pairwise fun a b => a.nowMs ≤ b.nowMs) :
    HoldsRate options (inMemoryTokenBucketStrategy options)
        (fun buckets key => (buckets key).map fun bucket => bucket.tokens) (fun _ => none) key calls
      ∧ HoldsRate options (redisTokenBucketStrategy options)
        (fun redis key => (redis (RedisTokenBucketStrategy.redisKey key)).map fun bucket =>
          bucket.tokens) (fun _ => none) key calls := by
  constructor
  · refine (draws_inMemory options).holdsRate (cellwise_inMemory options) (fun s key => ?_)
      (fun s s' key h => by rw [h]) rfl hcap.le hrate.le hcosts htimes
    simp [InMemoryTokenBucketStrategy.level, Function.comp_def]
  · refine (draws_redis options).holdsRate (cellwise_redis options) (fun s key => ?_)
      (fun s s' key h => by rw [h]) rfl hcap.le hrate.le hcosts htimes
    simp [RedisTokenBucketStrategy.level, Function.comp_def]

/-- A burst, another client's call in the middle, and a refused one. -/
theorem rate_held_burst :
    HoldsRate ⟨5, 1⟩ (inMemoryTokenBucketStrategy ⟨5, 1⟩)
        (fun buckets key => (buckets key).map fun bucket => bucket.tokens) (fun _ => none) "a"
        [⟨"a", 4, 0⟩, ⟨"b", 3, 900⟩, ⟨"a", 3, 1500⟩, ⟨"a", 2, 1500⟩]
      ∧ HoldsRate ⟨5, 1⟩ (redisTokenBucketStrategy ⟨5, 1⟩)
        (fun redis key => (redis (RedisTokenBucketStrategy.redisKey key)).map fun bucket =>
          bucket.tokens) (fun _ => none) "a"
        [⟨"a", 4, 0⟩, ⟨"b", 3, 900⟩, ⟨"a", 3, 1500⟩, ⟨"a", 2, 1500⟩] :=
  rate_held ⟨5, 1⟩ (by norm_num) (by norm_num) "a" _ (by simp [onKey]) (by simp [onKey])

/-! ## Clocks that disagree -/

section Skew

variable (options : TokenBucketOptions) (key : String)

/-- Calls at the given times that each take all the tokens there are. -/
def drainingCalls (times : List ℚ) : List Consume :=
  (drain options.capacity options.refillRate none (times.map (· / 1000))).map fun d =>
    ⟨key, d.2, d.1 * 1000⟩

theorem drainingCalls_nowMs (times : List ℚ) :
    (drainingCalls options key times).map Consume.nowMs = times := by
  have h : (drain options.capacity options.refillRate none (times.map (· / 1000))).map Prod.fst
      = times.map (· / 1000) := drain_fst _ _
  calc (drainingCalls options key times).map Consume.nowMs
      = ((drain options.capacity options.refillRate none (times.map (· / 1000))).map
          Prod.fst).map (· * 1000) := by simp [drainingCalls, Function.comp_def]
    _ = times := by simp [h, Function.comp_def]

theorem drainingCalls_nonneg (hcap : 0 ≤ options.capacity) (hrate : 0 ≤ options.refillRate)
    (times : List ℚ) :
    ∀ call ∈ drainingCalls options key times, call.key = key ∧ 0 ≤ call.cost := by
  intro call hc
  obtain ⟨d, hd, rfl⟩ := List.mem_map.1 hc
  exact ⟨rfl, drain_nonneg hcap hrate _ (by simp) d hd⟩

variable {S : Type} {options} {strategy : IRateLimiterStrategy S}
variable {level : S → String → Option (Level ℚ)}

/-- They get a full bucket and all that flows in. -/
theorem Draws.allowedCost_draining (hd : Draws options strategy level) {s : S}
    (hempty : level s key = none) (hcap : 0 ≤ options.capacity) (hrate : 0 ≤ options.refillRate)
    (t : ℚ) (ts : List ℚ) :
    allowedCost (answers strategy.consume s (drainingCalls options key (t :: ts)))
      = options.capacity
        + inflows options.capacity options.refillRate (t / 1000) (ts.map (· / 1000)) := by
  have hkey := fun c hc => (drainingCalls_nonneg options key hcap hrate (t :: ts) c hc).1
  rw [hd.allowedCost_answers key _ s hkey, hempty, ← total_drain]
  simp [drainingCalls, Function.comp_def, Consume.nowSeconds]

/-- No other calls at these times get more. -/
theorem Draws.allowedCost_le_inflows (hd : Draws options strategy level) {key : String} {s : S}
    (hempty : level s key = none) (hcap : 0 ≤ options.capacity) (hrate : 0 ≤ options.refillRate)
    {calls : List Consume} (hkey : ∀ call ∈ calls, call.key = key) {t : ℚ} {ts : List ℚ}
    (htimes : calls.map Consume.nowMs = t :: ts) :
    allowedCost (answers strategy.consume s calls) ≤ options.capacity
      + inflows options.capacity options.refillRate (t / 1000) (ts.map (· / 1000)) := by
  obtain ⟨first, rest, rfl, rfl, rfl⟩ := List.map_eq_cons_iff.1 htimes
  rw [hd.allowedCost_answers key _ s hkey, hempty, List.map_cons]
  refine (total_cons_le hcap hrate (by simp) _ _ _).trans_eq ?_
  simp [Function.comp_def, Consume.nowSeconds]

end Skew

/-- Whatever calls come at these times, in this order, and Redis does not drop the key in between,
they cost at most the capacity and the refill of the time between the earliest and the latest, if
and only if what flows in whenever the next call's clock is ahead of the one before adds up to no
more than that. -/
theorem skewed_rate_held_iff (options : TokenBucketOptions) (hcap : 0 < options.capacity)
    (hrate : 0 < options.refillRate) (key : String) (t : ℚ) (ts : List ℚ) :
    (∀ calls : List Consume, calls.map Consume.nowMs = t :: ts →
        (∀ call ∈ calls, call.key = key ∧ 0 ≤ call.cost) →
        allowedCost (answers (redisTokenBucketStrategy options).consume (fun _ => none) calls)
          ≤ options.capacity + options.refillRate * ((ts.foldl max t - ts.foldl min t) / 1000))
      ↔ inflows options.capacity options.refillRate (t / 1000) (ts.map (· / 1000))
          ≤ options.refillRate * ((ts.foldl max t - ts.foldl min t) / 1000) := by
  have hd := draws_redis options
  constructor
  · intro h
    have hdrain := h _ (drainingCalls_nowMs options key (t :: ts))
      (drainingCalls_nonneg options key hcap.le hrate.le _)
    rw [hd.allowedCost_draining key rfl hcap.le hrate.le] at hdrain
    linarith
  · intro h calls htimes hcalls
    have hkey : ∀ call ∈ calls, call.key = key := fun c hc => (hcalls c hc).1
    have hempty : RedisTokenBucketStrategy.level (fun _ => none) key = none := rfl
    have hle := hd.allowedCost_le_inflows hempty hcap.le hrate.le hkey htimes
    linarith

/-- The next instance is a second behind, and nobody is ahead again. -/
theorem skewed_rate_held_behind :
    inflows (10 : ℚ) 1 (0 / 1000) ([5000, 4000].map (· / 1000))
        ≤ 1 * (([5000, 4000].foldl max 0 - [5000, 4000].foldl min 0) / 1000)
      ∧ ∀ calls : List Consume, calls.map Consume.nowMs = 0 :: [5000, 4000] →
        (∀ call ∈ calls, call.key = "k" ∧ 0 ≤ call.cost) →
        allowedCost (answers (redisTokenBucketStrategy ⟨10, 1⟩).consume (fun _ => none) calls)
          ≤ 10 + 1 * (([5000, 4000].foldl max 0 - [5000, 4000].foldl min 0) / 1000) := by
  have h : inflows (10 : ℚ) 1 (0 / 1000) ([5000, 4000].map (· / 1000))
      ≤ 1 * (([5000, 4000].foldl max 0 - [5000, 4000].foldl min 0) / 1000) := by decide +kernel
  exact ⟨h, (skewed_rate_held_iff ⟨10, 1⟩ (by norm_num) (by norm_num) "k" 0 [5000, 4000]).2 h⟩

/-- Four calls for all ten tokens, from two instances whose clocks are ten seconds apart. -/
def skewedCalls : List Consume :=
  [⟨"k", 10, 0⟩, ⟨"k", 10, 10000⟩, ⟨"k", 10, 0⟩, ⟨"k", 10, 10000⟩]

theorem skewed_calls_exceed_rate :
    skewedCalls.map Consume.nowMs = 0 :: [10000, 0, 10000]
      ∧ (∀ call ∈ skewedCalls, call.key = "k" ∧ 0 ≤ call.cost)
      ∧ ¬ allowedCost
            (answers (redisTokenBucketStrategy ⟨10, 1⟩).consume (fun _ => none) skewedCalls)
          ≤ 10 + 1 * (([10000, 0, 10000].foldl max 0 - [10000, 0, 10000].foldl min 0) / 1000) := by
  decide +kernel

/-! ## The two strategies agree -/

section Agreement

open RedisTokenBucketStrategy

variable {options : TokenBucketOptions}

/-- From now on the two hold the same number of tokens for every key. What Redis holds is not
overdrawn, and lives long enough to fill. -/
structure Agree (options : TokenBucketOptions) (now : ℚ) (redis : Keyspace)
    (buckets : InMemoryTokenBucketStrategy.Buckets) : Prop where
  refilled_eq : ∀ key nowMs, now ≤ nowMs →
    refilled options.capacity options.refillRate (level redis key) (nowMs / 1000)
      = refilled options.capacity options.refillRate
          (InMemoryTokenBucketStrategy.level buckets key) (nowMs / 1000)
  tokens_nonneg : ∀ key, ∀ l ∈ level redis key, 0 ≤ l.tokens
  ttl_eq : ∀ key, ∀ bucket ∈ redis key,
    bucket.ttl = max 60 ⌈options.capacity / options.refillRate * 2⌉

theorem luaTokenBucket_ttl (capacity refillRate cost now : ℚ) (bucket : Option Hash) :
    (luaTokenBucket capacity refillRate cost now bucket).2.ttl
      = max 60 ⌈capacity / refillRate * 2⌉ := by
  simp only [luaTokenBucket]
  split <;> rfl

/-- A key Redis no longer has is a full bucket. -/
theorem level_erase (redis : Keyspace) (key key' : String) :
    level (Function.update redis (redisKey key) none) key'
      = if key' = key then none else level redis key' := by
  by_cases hkey : key' = key
  · simp [level, hkey]
  · simp [level, hkey, Function.update_of_ne (mt redisKey_inj.1 hkey)]

/-- What Redis holds is not overdrawn, and lives long enough to fill. -/
structure Lasting (options : TokenBucketOptions) (redis : Keyspace) : Prop where
  tokens_nonneg : ∀ key, ∀ l ∈ level redis key, 0 ≤ l.tokens
  ttl_eq : ∀ key, ∀ bucket ∈ redis key,
    bucket.ttl = max 60 ⌈options.capacity / options.refillRate * 2⌉

theorem lasting_empty : Lasting options fun _ => none := ⟨by simp [level], by simp⟩

theorem Lasting.consume (hcap : 0 ≤ options.capacity) (hrate : 0 ≤ options.refillRate)
    {redis : Keyspace} (h : Lasting options redis) (call : Consume) :
    Lasting options ((redisTokenBucketStrategy options).consume call redis).2 where
  tokens_nonneg key := (draws_redis options).tokens_nonneg hcap hrate h.tokens_nonneg call key
  ttl_eq key bucket hb := by
    simp only [redisTokenBucketStrategy, RedisTokenBucketStrategy.consume] at hb
    by_cases hkey : key = redisKey call.key
    · subst hkey
      rw [Function.update_self] at hb
      obtain rfl := Option.some.inj hb
      exact luaTokenBucket_ttl _ _ _ _ _
    · rw [Function.update_of_ne hkey] at hb
      exact h.ttl_eq key bucket hb

theorem Lasting.erase {redis : Keyspace} (h : Lasting options redis) (key : String) :
    Lasting options (Function.update redis (redisKey key) none) where
  tokens_nonneg key' l hl := by
    rw [level_erase] at hl
    split at hl
    · cases hl
    · exact h.tokens_nonneg key' l hl
  ttl_eq key' bucket hb := by
    by_cases hkey : key' = redisKey key
    · simp [hkey] at hb
    · rw [Function.update_of_ne hkey] at hb
      exact h.ttl_eq key' bucket hb

/-- Redis drops nothing, or a key that is old enough. -/
theorem expire_eq (key : String) (nowMs : ℚ) (redis : Keyspace) :
    RedisTokenBucketStrategy.expire key nowMs redis = redis
      ∨ RedisTokenBucketStrategy.expire key nowMs redis
          = Function.update redis (redisKey key) none
        ∧ ∃ bucket, redis (redisKey key) = some bucket
          ∧ bucket.lastUpdated + bucket.ttl ≤ nowMs / 1000 := by
  unfold RedisTokenBucketStrategy.expire
  rcases redis (redisKey key) with _ | bucket
  · exact .inl rfl
  simp only []
  split
  · exact .inr ⟨rfl, bucket, rfl, ‹_›⟩
  · exact .inl rfl

/-- A time to live of twice the time to fill has filled the bucket when it is over. -/
theorem Lasting.full_of_expired {redis : Keyspace} (h : Lasting options redis)
    (hcap : 0 < options.capacity) (hrate : 0 < options.refillRate) {key : String} {bucket : Hash}
    (hb : redis key = some bucket) {now : ℚ} (hold : bucket.lastUpdated + bucket.ttl ≤ now) :
    options.capacity ≤ (now - bucket.lastUpdated) * options.refillRate := by
  have httl : options.capacity / options.refillRate * 2 ≤ bucket.ttl := by
    rw [h.ttl_eq _ bucket hb]
    push_cast
    exact (Int.le_ceil _).trans (le_max_right _ _)
  have hfill : options.capacity / options.refillRate ≤ now - bucket.lastUpdated := by
    have := div_pos hcap hrate
    linarith
  calc options.capacity = options.capacity / options.refillRate * options.refillRate := by
        field_simp
    _ ≤ (now - bucket.lastUpdated) * options.refillRate :=
        mul_le_mul_of_nonneg_right hfill hrate.le

theorem Agree.lasting {now : ℚ} {redis : Keyspace} {buckets : InMemoryTokenBucketStrategy.Buckets}
    (h : Agree options now redis buckets) : Lasting options redis := ⟨h.tokens_nonneg, h.ttl_eq⟩

theorem Agree.mono {now now' : ℚ} {redis : Keyspace}
    {buckets : InMemoryTokenBucketStrategy.Buckets} (h : Agree options now redis buckets)
    (hle : now ≤ now') : Agree options now' redis buckets :=
  ⟨fun key nowMs hn => h.refilled_eq key nowMs (hle.trans hn), h.tokens_nonneg, h.ttl_eq⟩

theorem Agree.consume (hcap : 0 < options.capacity) (hrate : 0 < options.refillRate) {now : ℚ}
    {redis : Keyspace} {buckets : InMemoryTokenBucketStrategy.Buckets}
    (h : Agree options now redis buckets) {call : Consume} (hle : now ≤ call.nowMs) :
    ((redisTokenBucketStrategy options).consume call redis).1.decision
        = ((inMemoryTokenBucketStrategy options).consume call buckets).1.decision
      ∧ Agree options call.nowMs ((redisTokenBucketStrategy options).consume call redis).2
          ((inMemoryTokenBucketStrategy options).consume call buckets).2 := by
  have hr := draws_redis options
  have hm := draws_inMemory options
  have heq : refilled options.capacity options.refillRate (level redis call.key) call.nowSeconds
      = refilled options.capacity options.refillRate
          (InMemoryTokenBucketStrategy.level buckets call.key) call.nowSeconds :=
    h.refilled_eq call.key call.nowMs hle
  have hlasting := h.lasting.consume hcap.le hrate.le call
  refine ⟨by rw [hr.decision, hm.decision, heq], fun key nowMs hn => ?_, hlasting.tokens_nonneg,
    hlasting.ttl_eq⟩
  by_cases hkey : call.key = key
  · subst hkey
    rw [hr.own, hm.own, draw_congr heq]
  · rw [hr.other _ _ _ hkey, hm.other _ _ _ hkey, h.refilled_eq key nowMs (hle.trans hn)]

/-- Both may forget a key, or Redis one that is full by now in memory too. -/
theorem Agree.erase {now : ℚ} {redis : Keyspace}
    {buckets buckets' : InMemoryTokenBucketStrategy.Buckets} (h : Agree options now redis buckets)
    (key : String) (hfull : ∀ nowMs, now ≤ nowMs → options.capacity
      = refilled options.capacity options.refillRate
          (InMemoryTokenBucketStrategy.level buckets' key) (nowMs / 1000))
    (hother : ∀ key', key' ≠ key → buckets' key' = buckets key') :
    Agree options now (Function.update redis (redisKey key) none) buckets' where
  refilled_eq key' nowMs hn := by
    rw [level_erase]
    by_cases hkey : key' = key
    · subst hkey
      simpa [refilled] using hfull nowMs hn
    · have hlevel : InMemoryTokenBucketStrategy.level buckets' key'
          = InMemoryTokenBucketStrategy.level buckets key' := by
        simp only [InMemoryTokenBucketStrategy.level, hother key' hkey]
      rw [if_neg hkey, hlevel, h.refilled_eq key' nowMs hn]
  tokens_nonneg := (h.lasting.erase key).tokens_nonneg
  ttl_eq := (h.lasting.erase key).ttl_eq

/-- What Redis drops has filled in memory too. -/
theorem Agree.expire (hrate : 0 < options.refillRate) (hcap : 0 < options.capacity) {now : ℚ}
    {redis : Keyspace} {buckets : InMemoryTokenBucketStrategy.Buckets}
    (h : Agree options now redis buckets) (key : String) :
    Agree options now (RedisTokenBucketStrategy.expire key now redis) buckets := by
  rcases expire_eq key now redis with heq | ⟨heq, bucket, hb, hold⟩
  · rwa [heq]
  rw [heq]
  refine h.erase key (fun nowMs hn => ?_) (fun _ _ => rfl)
  have hlevel : level redis key = some ⟨bucket.tokens, bucket.lastUpdated⟩ := by
    simp [level, hb]
  have hlate : bucket.lastUpdated + bucket.ttl ≤ nowMs / 1000 :=
    hold.trans (div_le_div_of_nonneg_right hn (by norm_num))
  rw [← h.refilled_eq key nowMs hn, hlevel]
  exact (refilled_eq_cap hrate.le (h.tokens_nonneg key _ hlevel)
    (h.lasting.full_of_expired hcap hrate hb hlate)).symm

/-- One event: the same decision, and the two still agree. -/
theorem Agree.handle (hcap : 0 < options.capacity) (hrate : 0 < options.refillRate)
    (event : LimiterEvent) (now : ℚ) (redis : Keyspace)
    (buckets : InMemoryTokenBucketStrategy.Buckets) (h : Agree options now redis buckets)
    (hle : now ≤ event.nowMs) :
    ((redisTokenBucketStrategy options).handle RedisTokenBucketStrategy.expire event redis).1.map
          RateLimitResult.decision
        = ((inMemoryTokenBucketStrategy options).handle (fun _ _ buckets => buckets) event
            buckets).1.map RateLimitResult.decision
      ∧ Agree options event.nowMs
          ((redisTokenBucketStrategy options).handle RedisTokenBucketStrategy.expire event redis).2
          ((inMemoryTokenBucketStrategy options).handle (fun _ _ buckets => buckets) event
            buckets).2 := by
  rcases event with call | ⟨key, nowMs⟩ | ⟨key, nowMs⟩
  · obtain ⟨hdecision, hagree⟩ := h.consume hcap hrate hle
    exact ⟨congrArg some hdecision, hagree⟩
  · refine ⟨rfl, (h.mono hle).erase key (fun nowMs _ => ?_) fun key' hkey => ?_⟩
    · have hnone : InMemoryTokenBucketStrategy.level
          (InMemoryTokenBucketStrategy.reset key buckets) key = none := by
        simp [InMemoryTokenBucketStrategy.level, InMemoryTokenBucketStrategy.reset]
      exact (congrArg (refilled _ _ · _) hnone).symm
    · exact Function.update_of_ne hkey _ _
  · exact ⟨rfl, (h.mono hle).expire hrate hcap key⟩

end Agreement

/-- On any calls in order, and whichever keys Redis drops once their time to live has passed, Redis
and memory decide alike. -/
theorem redis_decides_as_memory (options : TokenBucketOptions) (hcap : 0 < options.capacity)
    (hrate : 0 < options.refillRate) (events : List LimiterEvent)
    (htimes : events.Pairwise fun e f => e.nowMs ≤ f.nowMs) :
    (answers ((redisTokenBucketStrategy options).handle RedisTokenBucketStrategy.expire)
        (fun _ => none) events).map (fun p => p.2.map RateLimitResult.decision)
      = (answers ((inMemoryTokenBucketStrategy options).handle fun _ _ buckets => buckets)
          (fun _ => none) events).map fun p => p.2.map RateLimitResult.decision := by
  rcases events with _ | ⟨e, es⟩
  · rfl
  have hstart : Agree options e.nowMs (fun _ => none) fun _ => none :=
    ⟨fun _ _ _ => rfl, by simp [RedisTokenBucketStrategy.level], by simp⟩
  have hfirst : ∀ f ∈ e :: es, e.nowMs ≤ f.nowMs := by
    simpa using (List.pairwise_cons.1 htimes).1
  exact answers_alike LimiterEvent.nowMs _ (Agree options) (Agree.handle hcap hrate) (e :: es)
    hstart hfirst htimes

/-- Redis drops the key of a client that comes back a minute later, and the client is reset. -/
theorem redis_decides_as_memory_dropped :
    (answers ((redisTokenBucketStrategy ⟨5, 1⟩).handle RedisTokenBucketStrategy.expire)
        (fun _ => none) [.consume ⟨"a", 4, 0⟩, .expire "a" 60000, .consume ⟨"a", 5, 61000⟩,
          .reset "a" 61000, .consume ⟨"a", 6, 61000⟩]).map
            (fun p => p.2.map RateLimitResult.decision)
      = (answers ((inMemoryTokenBucketStrategy ⟨5, 1⟩).handle fun _ _ buckets => buckets)
          (fun _ => none) [.consume ⟨"a", 4, 0⟩, .expire "a" 60000, .consume ⟨"a", 5, 61000⟩,
            .reset "a" 61000, .consume ⟨"a", 6, 61000⟩]).map
              fun p => p.2.map RateLimitResult.decision :=
  redis_decides_as_memory ⟨5, 1⟩ (by norm_num) (by norm_num) _
    (by norm_num [LimiterEvent.nowMs])

end LaunchPad
