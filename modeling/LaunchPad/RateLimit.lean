import LaunchPad.Lib.Transaction
import Mathlib.Algebra.Order.Ring.Rat
import Mathlib.Data.Rat.Floor
import Mathlib.Logic.Function.Basic

/-!
# Rate limiting

The two implementations of `IRateLimiterStrategy`. `InMemoryTokenBucketStrategy` keeps its buckets
in a map of the process; `RedisTokenBucketStrategy` sends a Lua script to the Redis all instances
share, which runs it whole. Numbers are the exact rationals they stand for, times what the caller's
clock shows.
-/

namespace LaunchPad

open Interleave

structure RateLimitResult where
  allowed : Bool
  limit : ℚ
  remaining : ℚ
  resetMs : ℤ
  retryAfterSeconds : ℤ
deriving DecidableEq

/-- A call of `consume`, and the milliseconds its clock shows. -/
structure Consume where
  key : String
  cost : ℚ := 1
  nowMs : ℚ
deriving DecidableEq

/-- A strategy, over the state it keeps. -/
structure IRateLimiterStrategy (S : Type) where
  consume : Consume → S → RateLimitResult × S
  reset : String → S → S

structure TokenBucketOptions where
  capacity : ℚ
  refillRate : ℚ
deriving DecidableEq

namespace InMemoryTokenBucketStrategy

structure BucketState where
  tokens : ℚ
  lastRefillMs : ℚ
deriving DecidableEq

abbrev Buckets := String → Option BucketState

def consume (options : TokenBucketOptions) (call : Consume) (buckets : Buckets) :
    RateLimitResult × Buckets :=
  let bucket := (buckets call.key).getD ⟨options.capacity, call.nowMs⟩
  let elapsedSeconds := max 0 ((call.nowMs - bucket.lastRefillMs) / 1000)
  let refilledTokens := elapsedSeconds * options.refillRate
  let currentTokens := min options.capacity (bucket.tokens + refilledTokens)
  if currentTokens ≥ call.cost then
    let remainingTokens := currentTokens - call.cost
    let timeToFullMs := ⌈(options.capacity - remainingTokens) / options.refillRate * 1000⌉
    (⟨true, options.capacity, ⌊remainingTokens⌋, timeToFullMs, 0⟩,
      Function.update buckets call.key (some ⟨remainingTokens, call.nowMs⟩))
  else
    let deficit := call.cost - currentTokens
    let waitSeconds := max 1 ⌈deficit / options.refillRate⌉
    (⟨false, options.capacity, ⌊currentTokens⌋, waitSeconds * 1000, waitSeconds⟩,
      Function.update buckets call.key (some ⟨currentTokens, call.nowMs⟩))

def reset (key : String) (buckets : Buckets) : Buckets := Function.update buckets key none

end InMemoryTokenBucketStrategy

def inMemoryTokenBucketStrategy (options : TokenBucketOptions) :
    IRateLimiterStrategy InMemoryTokenBucketStrategy.Buckets where
  consume := InMemoryTokenBucketStrategy.consume options
  reset := InMemoryTokenBucketStrategy.reset

namespace RedisTokenBucketStrategy

/-- What `HMSET` stores under a key, and the seconds `EXPIRE` gives it from then on. -/
structure Hash where
  tokens : ℚ
  lastUpdated : ℚ
  ttl : ℤ
deriving DecidableEq

/-- What the script returns. -/
structure Reply where
  allowed : ℤ
  remaining : ℤ
  timeToFull : ℤ
  retryAfter : ℤ
deriving DecidableEq

abbrev Keyspace := String → Option Hash

/-- `LUA_TOKEN_BUCKET`, on the hash of its key. -/
def luaTokenBucket (capacity refillRate cost now : ℚ) (bucket : Option Hash) : Reply × Hash :=
  let tokens := bucket.elim capacity Hash.tokens
  let lastUpdated := bucket.elim now Hash.lastUpdated
  let elapsed := max 0 (now - lastUpdated)
  let refilled := elapsed * refillRate
  let currentTokens := min capacity (tokens + refilled)
  if currentTokens ≥ cost then
    let remaining := currentTokens - cost
    let ttl := ⌈capacity / refillRate * 2⌉
    (⟨1, ⌊remaining⌋, ⌈(capacity - remaining) / refillRate * 1000⌉, 0⟩,
      ⟨remaining, now, max 60 ttl⟩)
  else
    let remaining := currentTokens
    let deficit := cost - currentTokens
    let retryAfter := max 1 ⌈deficit / refillRate⌉
    let ttl := ⌈capacity / refillRate * 2⌉
    (⟨0, ⌊remaining⌋, ⌈(capacity - remaining) / refillRate * 1000⌉, retryAfter⟩,
      ⟨currentTokens, now, max 60 ttl⟩)

def redisKey (key : String) : String := "ratelimit:v1:" ++ key

/-- `consume`, on what becomes of its `EVAL`. Where Redis fails it, the call is let through. -/
def consume (options : TokenBucketOptions) (fate : Fate) (call : Consume) (redis : Keyspace) :
    RateLimitResult × Keyspace :=
  let nowSeconds := call.nowMs / 1000
  let res := luaTokenBucket options.capacity options.refillRate call.cost nowSeconds
    (redis (redisKey call.key))
  let ran := Function.update redis (redisKey call.key) (some res.2)
  let failOpen := ⟨true, options.capacity, options.capacity, 0, 0⟩
  match fate with
  | .answered =>
    (⟨res.1.allowed == 1, options.capacity, res.1.remaining, res.1.timeToFull, res.1.retryAfter⟩,
      ran)
  | .failed => (failOpen, redis)
  | .answerLost => (failOpen, ran)

/-- `reset`, whose `DEL` may fail unnoticed. -/
def reset (fate : Fate) (key : String) (redis : Keyspace) : Keyspace :=
  match fate with
  | .failed => redis
  | _ => Function.update redis (redisKey key) none

/-- Redis drops a key whose time to live has passed. -/
def expire (key : String) (nowMs : ℚ) (redis : Keyspace) : Keyspace :=
  match redis (redisKey key) with
  | some bucket =>
    if bucket.lastUpdated + bucket.ttl ≤ nowMs / 1000 then
      Function.update redis (redisKey key) none
    else redis
  | none => redis

end RedisTokenBucketStrategy

/-- With a Redis that answers. -/
def redisTokenBucketStrategy (options : TokenBucketOptions) :
    IRateLimiterStrategy RedisTokenBucketStrategy.Keyspace where
  consume := RedisTokenBucketStrategy.consume options .answered
  reset := RedisTokenBucketStrategy.reset .answered

/-- What happens to a limiter: a call, or a key's time to live passing. -/
inductive LimiterEvent
  | consume (call : Consume)
  | reset (key : String) (nowMs : ℚ)
  | expire (key : String) (nowMs : ℚ)

def LimiterEvent.nowMs : LimiterEvent → ℚ
  | .consume call => call.nowMs
  | .reset _ nowMs => nowMs
  | .expire _ nowMs => nowMs

/-- An event on a strategy that forgets a key as `expire` says; a `consume` answers. -/
def IRateLimiterStrategy.handle {S : Type} (strategy : IRateLimiterStrategy S)
    (expire : String → ℚ → S → S) : LimiterEvent → S → Option RateLimitResult × S
  | .consume call, s => ((strategy.consume call s).map some id)
  | .reset key _, s => (none, strategy.reset key s)
  | .expire key nowMs, s => (none, expire key nowMs s)

end LaunchPad
