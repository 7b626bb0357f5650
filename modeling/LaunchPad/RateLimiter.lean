import LaunchPad.Idempotency
import LaunchPad.RateLimit

/-!
# The rate limiter middleware

`createRateLimiterMiddleware` makes a key of a request and lets its strategy decide. The default key
is a text of the client's address, the user id and the path, with colons in between. An arrival is a
request with what the clock of the strategy and `Date.now()` show.
-/

namespace LaunchPad

/-- What the middleware reads of a request. -/
structure ClientRequest where
  forwarded : Option HeaderValue
  userId : Option HeaderValue
  ip : Option String
  baseUrl : String
  path : String

structure RateLimiterMiddlewareOptions (S : Type) where
  strategy : IRateLimiterStrategy S
  /-- `none` is a generator that throws. -/
  keyGenerator : Option (ClientRequest → Option String)
  cost : Option ℚ

structure Arrival where
  req : ClientRequest
  nowMs : ℚ
  dateNow : ℚ

/-- `X-RateLimit-Limit`, `-Remaining` and `-Reset`. -/
structure RateLimitHeaders where
  limit : ℚ
  remaining : ℚ
  reset : ℤ
deriving DecidableEq

/-- What becomes of a request: the middleware calls `next`, or answers it with a status code. -/
inductive RateLimiterOutcome
  | next (headers : Option RateLimitHeaders)
  | limited (headers : RateLimitHeaders) (retryAfter : ℤ) (statusCode : ℕ) (code message : String)
      (retryAfterSeconds : ℤ)
deriving DecidableEq

namespace ClientRequest

/-- `forwarded.split(',')[0].trim()` -/
def firstForwarded (forwarded : String) : String :=
  trim (String.ofList (forwarded.toList.takeWhile (· ≠ ',')))

/-- The client's address, if there is one. -/
def address (req : ClientRequest) : Option String :=
  match req.forwarded with
  | some (.one forwarded) => some (firstForwarded forwarded)
  | _ => truthy req.ip

/-- The user id, if there is one. An array is truthy, and its text has commas in between. -/
def user (req : ClientRequest) : Option String :=
  match req.userId with
  | some (.one userId) => truthy (some userId)
  | some (.many values) => some (",".intercalate values)
  | none => none

def fullPath (req : ClientRequest) : String := req.baseUrl ++ req.path

def defaultKeyGen (req : ClientRequest) : String :=
  let ip := req.address.getD "anonymous"
  let userId := req.user.getD "anon"
  ip ++ ":" ++ userId ++ ":" ++ req.fullPath

end ClientRequest

variable {S : Type}

/-- The handler `createRateLimiterMiddleware` returns. -/
def rateLimiter (options : RateLimiterMiddlewareOptions S) (a : Arrival) (s : S) :
    RateLimiterOutcome × S :=
  let getKey := options.keyGenerator.getD fun req => some req.defaultKeyGen
  match getKey a.req with
  | none => (.next none, s)
  | some key =>
    let (result, s) := options.strategy.consume ⟨key, options.cost.getD 1, a.nowMs⟩ s
    let headers := ⟨result.limit, result.remaining, ⌈(a.dateNow + result.resetMs) / 1000⌉⟩
    if !result.allowed then
      (.limited headers result.retryAfterSeconds 429 "RATE_LIMIT_EXCEEDED"
        ("Too many requests. Please retry after " ++ toString result.retryAfterSeconds
          ++ " seconds.") result.retryAfterSeconds, s)
    else (.next (some headers), s)

end LaunchPad
