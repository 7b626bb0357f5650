import LaunchPad.Idempotency
import LaunchPad.Lib.Bracket
import LaunchPad.LoadShedder
import LaunchPad.RateLimiter

/-!
# The app

`createApp` puts the load shedder, the rate limiter and the idempotency middleware in front of the
routes under `/api`, in this order. Any number of instances run it: each has a limiter of its own or
none, and its rate limiter, if it has one, keeps its tokens where those of the others may be too; a
key's time to live may pass there. All share the table of idempotency keys. The route's handler is
what follows the idempotency middleware.
-/

namespace LaunchPad

open Interleave

/-- A request under `/api`; `path` is what follows that. Node joins the values of a header that is
repeated into one text. -/
structure ApiRequest where
  method : String
  path : String
  forwarded : Option String
  userId : Option String
  idempotencyKey : Option String
  ip : Option String
  body : Option String

namespace ApiRequest

def baseUrl : String := "/api"

def routed (req : ApiRequest) : RoutedRequest := ⟨req.method, req.path⟩

def client (req : ApiRequest) : ClientRequest where
  forwarded := req.forwarded.map .one
  userId := req.userId.map .one
  ip := req.ip
  baseUrl := baseUrl
  path := req.path

def http (req : ApiRequest) : HttpRequest where
  idempotencyKey := req.idempotencyKey.map .one
  userId := req.userId
  method := req.method
  baseUrl := baseUrl
  path := req.path
  body := req.body

end ApiRequest

/-- What `createApp` is given. A strategy is given by what becomes of the statement it sends. -/
structure AppOptions (S : Type) where
  concurrencyLimiter : Option ConcurrencyLimiterOptions
  rateLimiterStrategy : Option (Fate → IRateLimiterStrategy S)

/-- The strategy of all instances on one Redis. -/
def redisRateLimiter (options : TokenBucketOptions) (onConsume : Fate) :
    IRateLimiterStrategy RedisTokenBucketStrategy.Keyspace where
  consume := RedisTokenBucketStrategy.consume options onConsume
  reset := RedisTokenBucketStrategy.reset onConsume

/-- What the middlewares in front keep: the load shedders of the instances, and the tokens. What is
not in the source is kept beside them: the requests the load shedders let through, in their order,
and what the rate limiters decided, in theirs, with `none` where a key's time to live passed. -/
structure Front (ι τ S : Type) where
  shedders : ι → Option LoadShedder
  tokens : S
  admitted : List τ
  decided : List (τ × Option RateLimiterOutcome)

/-- A request comes in at an instance, a response that it let through emits an event, the time to
live of a rate limiter's key passes, or time does. A request has what becomes of the statements made
for it, what its handler does, and what the clocks of the rate limiter show. The time of a key is
what the clock shows by then that its last request came with. -/
inductive AppCall (ι β : Type)
  | request (i : ι) (env : RequestEnv β) (retries : ℕ) (onConsume : Fate) (nowMs dateNow : ℚ)
      (req : ApiRequest)
  | finish (i : ι) (response : ℕ)
  | close (i : ι) (response : ℕ)
  | expire (key : String) (nowMs : ℚ)
  | tick (ms : ℕ)

/-- How a call ends in front of the idempotency middleware: a middleware answers the request, or the
event has been heard. -/
inductive FrontAnswer
  | shed (outcome : ShedderOutcome)
  | limited (outcome : RateLimiterOutcome)
  | heard

section App

variable {ι τ β S : Type} [DecidableEq ι]

open Async (await)

/-- What the instances start with. -/
def Front.new (app : ι → AppOptions S) (tokens : S) : Front ι τ S where
  shedders i := (app i).concurrencyLimiter.map fun options => ⟨.new options, []⟩
  tokens := tokens
  admitted := []
  decided := []

/-- The load shedder of an instance, if it has one. -/
def shedLoad (req : ApiRequest) : Option LoadShedder → ShedderOutcome × Option LoadShedder
  | none => (.next, none)
  | some s => (LoadShedder.middleware none req.routed s).map id some

/-- The rate limiter of an instance, if it has one. -/
def limitRate (options : AppOptions S) (onConsume : Fate) (a : Arrival) (tokens : S) :
    RateLimiterOutcome × S :=
  match options.rateLimiterStrategy with
  | none => (.next none, tokens)
  | some strategy => rateLimiter ⟨strategy onConsume, none, none⟩ a tokens

/-- The request comes to the load shedder. -/
def Front.arrive (t : τ) (i : ι) (req : ApiRequest) (w : Front ι τ S) :
    ShedderOutcome × Front ι τ S :=
  let (outcome, shedder) := shedLoad req (w.shedders i)
  (outcome, { w with
    shedders := Function.update w.shedders i shedder
    admitted := if outcome = .next then w.admitted ++ [t] else w.admitted })

/-- The request comes to the rate limiter. -/
def Front.ask (t : τ) (options : AppOptions S) (onConsume : Fate) (a : Arrival)
    (w : Front ι τ S) : RateLimiterOutcome × Front ι τ S :=
  let (outcome, tokens) := limitRate options onConsume a w.tokens
  (outcome, { w with tokens, decided := w.decided ++ [(t, some outcome)] })

/-- The time to live of a key passes. -/
def Front.expire (t : τ) (expire : String → ℚ → S → S) (key : String) (nowMs : ℚ)
    (w : Front ι τ S) : Front ι τ S :=
  { w with tokens := expire key nowMs w.tokens, decided := w.decided ++ [(t, none)] }

/-- A response that an instance let through emits an event. -/
def Front.emit (i : ι) (response : ℕ) (note : AdmittedResponse → AdmittedResponse)
    (w : Front ι τ S) : Front ι τ S :=
  let shedder := (w.shedders i).map (LoadShedder.emit response note)
  { w with shedders := Function.update w.shedders i shedder }

/-- The two middlewares in front. They let a request through with the headers of its rate limit. -/
def front (app : ι → AppOptions S) (t : τ) (i : ι) (onConsume : Fate) (a : Arrival)
    (req : ApiRequest) : Async (Front ι τ S) Empty (FrontAnswer ⊕ Option RateLimitHeaders) := do
  match ← await (fun w => some ((w.arrive t i req).map .ok id)) with
  | .next =>
    match ← await (fun w => some ((w.ask t (app i) onConsume a).map .ok id)) with
    | .next headers => pure (.inr headers)
    | outcome => pure (.inl (.limited outcome))
  | outcome => pure (.inl (.shed outcome))

namespace AppCall

/-- What a call does in front. -/
def front (app : ι → AppOptions S) (expire : String → ℚ → S → S) (t : τ) :
    AppCall ι β → Async (Front ι τ S) Empty (FrontAnswer ⊕ Option RateLimitHeaders)
  | .request i _ _ onConsume nowMs dateNow req =>
    LaunchPad.front app t i onConsume ⟨req.client, nowMs, dateNow⟩ req
  | .finish i response => do
    await (Sync.modify (Front.emit i response fun r => { r with finished := true }))
    pure (.inl .heard)
  | .close i response => do
    await (Sync.modify (Front.emit i response fun r => { r with closed := true }))
    pure (.inl .heard)
  | .expire key nowMs => do
    await (Sync.modify (Front.expire t expire key nowMs))
    pure (.inl .heard)
  | .tick _ => pure (.inr none)

/-- What the idempotency middleware gets of a call; an event does not come that far. -/
def http : AppCall ι β → HttpCall β
  | .request _ env retries _ _ _ req => .request env retries req.http
  | .tick ms => .tick ms
  | _ => .tick 0

end AppCall

/-- What has become of a call that has ended: it ended in front, or it was let through with these
headers, and the idempotency middleware or the handler behind it answered. -/
abbrev AppResult (β : Type) : Type :=
  FrontAnswer ⊕ Option RateLimitHeaders × Except IdempotencyError (Option (HttpResponse β))

/-- The calls in front, none of which has started. -/
def fronts (app : ι → AppOptions S) (expire : String → ℚ → S → S) (tokens : S)
    (calls : τ → AppCall ι β) :
    Config τ (Front ι τ S) Empty (FrontAnswer ⊕ Option RateLimitHeaders) :=
  ⟨.new app tokens, fun t => (calls t).front app expire t⟩

variable [DecidableEq τ]

/-- The calls at the instances of the app, none of which has started, before an empty table. The
tokens are kept where a key is forgotten as `expire` says. -/
def appCalls (app : ι → AppOptions S) (expire : String → ℚ → S → S) (tokens : S)
    (sha256 : String → String) (calls : τ → AppCall ι β) :
    Config τ (Front ι τ S × IdempotencyDb τ β) Empty (AppResult β) :=
  (fronts app expire tokens calls).bracket .inl (fun _ headers r => pure (.inr (headers, r)))
    (httpCalls sha256 fun t => (calls t).http)

end App

end LaunchPad
