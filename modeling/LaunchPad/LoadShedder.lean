import Mathlib.Algebra.Order.Ring.Rat
import Mathlib.Data.List.Infix
import Mathlib.Data.Rat.Floor

/-!
# Load shedding

`ConcurrencyLimiter` counts the requests under way, and `createLoadShedderMiddleware` lets a request
through where the limiter has a slot for it. Its response gives the slot back with its first event
of `finish` and `close`, of which it may emit either or both, in any order and number. Numbers are
the exact rationals they stand for.
-/

namespace LaunchPad

inductive RequestPriority
  | high
  | normal
  | low
deriving DecidableEq

structure ConcurrencyLimiterOptions where
  maxConcurrent : ℚ
  lowPriorityThresholdRatio : Option ℚ

structure ConcurrencyLimiter where
  maxConcurrent : ℚ
  lowPriorityThreshold : ℤ
  activeRequests : ℤ
  totalAdmitted : ℤ
  totalShed : ℤ
deriving DecidableEq

structure LimiterStats where
  activeRequests : ℤ
  maxConcurrent : ℚ
  totalAdmitted : ℤ
  totalShed : ℤ
  shedRate : ℚ
deriving DecidableEq

namespace ConcurrencyLimiter

/-- A limiter nobody has used. -/
def unused (maxConcurrent : ℚ) (lowPriorityThreshold : ℤ) : ConcurrencyLimiter :=
  ⟨maxConcurrent, lowPriorityThreshold, 0, 0, 0⟩

def new (options : ConcurrencyLimiterOptions) : ConcurrencyLimiter :=
  let ratio := options.lowPriorityThresholdRatio.getD 0.8
  unused options.maxConcurrent ⌊options.maxConcurrent * ratio⌋

def tryAcquire (priority : RequestPriority) (l : ConcurrencyLimiter) : Bool × ConcurrencyLimiter :=
  if (l.activeRequests : ℚ) ≥ l.maxConcurrent then (false, { l with totalShed := l.totalShed + 1 })
  else if priority = .low ∧ l.activeRequests ≥ l.lowPriorityThreshold then
    (false, { l with totalShed := l.totalShed + 1 })
  else
    (true, { l with
      activeRequests := l.activeRequests + 1, totalAdmitted := l.totalAdmitted + 1 })

def release (l : ConcurrencyLimiter) : ConcurrencyLimiter :=
  if l.activeRequests > 0 then { l with activeRequests := l.activeRequests - 1 } else l

/-- `Math.round` rounds halves up. -/
def getStats (l : ConcurrencyLimiter) : LimiterStats :=
  let total := l.totalAdmitted + l.totalShed
  let shedRate := if total > 0 then (l.totalShed : ℚ) / total * 100 else 0
  ⟨l.activeRequests, l.maxConcurrent, l.totalAdmitted, l.totalShed, ⌊shedRate * 100 + 1 / 2⌋ / 100⟩

end ConcurrencyLimiter

/-! ## The middleware -/

/-- What the middleware reads of a request. -/
structure RoutedRequest where
  method : String
  path : String

/-- Writes are `HIGH`, the read of one event is `NORMAL`: `^\/events\/[^/]+$`. -/
def defaultPriority (req : RoutedRequest) : RequestPriority :=
  if "/reservations".toList <:+: req.path.toList ∨ req.method = "POST" ∨ req.method = "PATCH" then
    .high
  else if req.method = "GET" ∧ "/events/".toList <+: req.path.toList
      ∧ req.path.toList.drop "/events/".toList.length ≠ []
      ∧ '/' ∉ req.path.toList.drop "/events/".toList.length then .normal
  else .low

/-- What becomes of a request: the middleware answers it, or calls `next`. -/
inductive ShedderOutcome
  | overloaded (retryAfter : String) (statusCode : ℕ) (code message : String)
      (retryAfterSeconds : ℕ)
  | next
deriving DecidableEq

/-- A response let through: whether it has given its slot back, and which events it has emitted. -/
structure AdmittedResponse where
  released : Bool
  finished : Bool
  closed : Bool
deriving DecidableEq

/-- The limiter, and the responses let through so far. -/
structure LoadShedder where
  limiter : ConcurrencyLimiter
  responses : List AdmittedResponse
deriving DecidableEq

/-- A request comes in, or a response emits an event. -/
inductive ShedderEvent
  | arrive (req : RoutedRequest)
  | finish (response : ℕ)
  | close (response : ℕ)

namespace LoadShedder

def serverOverloaded : ShedderOutcome :=
  .overloaded "2" 503 "SERVER_OVERLOADED"
    "Server is currently operating at maximum capacity. Please retry shortly." 2

/-- The handler `createLoadShedderMiddleware` returns. -/
def middleware (priorityResolver : Option (RoutedRequest → RequestPriority)) (req : RoutedRequest)
    (s : LoadShedder) : ShedderOutcome × LoadShedder :=
  let getPriority := priorityResolver.getD defaultPriority
  match s.limiter.tryAcquire (getPriority req) with
  | (false, limiter) => (serverOverloaded, { s with limiter })
  | (true, limiter) => (.next, ⟨limiter, s.responses ++ [⟨false, false, false⟩]⟩)

/-- The listener of a response. -/
def releaseOnce (r : AdmittedResponse) (limiter : ConcurrencyLimiter) :
    AdmittedResponse × ConcurrencyLimiter :=
  if !r.released then ({ r with released := true }, limiter.release) else (r, limiter)

/-- A response that was let through emits an event, and its listener runs. -/
def emit (response : ℕ) (note : AdmittedResponse → AdmittedResponse) (s : LoadShedder) :
    LoadShedder :=
  match s.responses[response]? with
  | some r =>
    let noticed := releaseOnce (note r) s.limiter
    ⟨noticed.2, s.responses.set response noticed.1⟩
  | none => s

def step (priorityResolver : Option (RoutedRequest → RequestPriority)) (s : LoadShedder) :
    ShedderEvent → LoadShedder
  | .arrive req => (middleware priorityResolver req s).2
  | .finish response => emit response (fun r => { r with finished := true }) s
  | .close response => emit response (fun r => { r with closed := true }) s

/-- What these events make of it. -/
def run (priorityResolver : Option (RoutedRequest → RequestPriority)) (s : LoadShedder)
    (events : List ShedderEvent) : LoadShedder :=
  events.foldl (step priorityResolver) s

end LoadShedder

end LaunchPad
