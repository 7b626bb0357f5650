import LaunchPad.Basic
import LaunchPad.Lib.Table
import LaunchPad.Lib.Transaction
import Mathlib.Algebra.Ring.Nat

/-!
# Idempotency keys

`PostgresIdempotencyStore` over the table `idempotency_keys`, and the middleware that guards the
handlers with it. The statements of `acquire` run outside a transaction, so other requests come in
between. One clock is read by the server and by the database; `tick` moves it.

A handler begins where its request is told it has acquired the key, and has ended where its
`complete` or `fail` has been answered, or where it has stopped. What is not in the source is kept
beside the table: which request inserted a row, the handlers that have begun and those that run, and
the responses that were stored.
-/

namespace LaunchPad

open Interleave Rows

inductive IdempotencyStatus
  | inProgress
  | completed
  | failed
deriving DecidableEq

/-- A row of `idempotency_keys`, and the request that inserted it. `none` is NULL; a response body
that is none is JSON's null. -/
structure IdempotencyRow (τ β : Type) where
  userId : Option String
  requestPath : String
  requestMethod : String
  requestHash : String
  status : IdempotencyStatus
  responseStatusCode : Option ℕ
  responseHeaders : Option (List (String × String))
  responseBody : Option β
  createdAt : Time
  lockedUntil : Option Time
  insertedBy : τ

structure IdempotencyRecord (β : Type) where
  key : String
  userId : Option String
  requestPath : String
  requestMethod : String
  requestHash : String
  status : IdempotencyStatus
  responseStatusCode : Option ℕ
  responseHeaders : List (String × String)
  responseBody : Option β
  createdAt : Time
  lockedUntil : Option Time

/-- The record made of a row; `row.response_headers || {}`. -/
def IdempotencyRow.record {τ β : Type} (row : IdempotencyRow τ β) (key : String) :
    IdempotencyRecord β where
  key := key
  userId := row.userId
  requestPath := row.requestPath
  requestMethod := row.requestMethod
  requestHash := row.requestHash
  status := row.status
  responseStatusCode := row.responseStatusCode
  responseHeaders := row.responseHeaders.getD []
  responseBody := row.responseBody
  createdAt := row.createdAt
  lockedUntil := row.lockedUntil

inductive AcquireResult (β : Type)
  | acquired
  | completed (record : IdempotencyRecord β)
  | inProgress
  | mismatch

/-- A statement that fails. What it says is passed on to `next`. -/
inductive IdempotencyError
  | database
deriving DecidableEq

/-- What a request has that acquired a key: the end of its lock, and the request that inserted the
row it found. -/
structure Lease (τ : Type) where
  lockedUntil : Time
  row : τ
deriving DecidableEq

/-- A `complete` that took effect: whose it was, who had inserted the row it hit, who had inserted
the row its request had acquired, and what it stored. -/
structure StoredResponse (τ β : Type) where
  request : τ
  row : τ
  acquired : τ
  statusCode : ℕ
  body : Option β
deriving DecidableEq

/-- The table and the clock; the handlers that run, those that have begun, and the responses
stored. -/
structure IdempotencyDb (τ β : Type) where
  keys : Table String (IdempotencyRow τ β)
  now : Time
  running : τ → Option (Lease τ)
  runs : List τ
  stored : List (StoredResponse τ β)

section Store

variable {τ β : Type}

def IdempotencyDb.empty : IdempotencyDb τ β := ⟨.empty, 0, fun _ => none, [], []⟩

/-- `INSERT ... ON CONFLICT (key) DO NOTHING RETURNING *`. Says whether the row was inserted. -/
def insertKey (t : τ) (key path method hash : String) (userId : Option String)
    (lockedUntil : Time) : Sync (IdempotencyDb τ β) IdempotencyError Bool := fun db =>
  match db.keys.row key with
  | some _ => some (.ok false, db)
  | none => some (.ok true, { db with
      keys := db.keys.set key
        { userId := truthy userId
          requestPath := path
          requestMethod := method
          requestHash := hash
          status := .inProgress
          responseStatusCode := none
          responseHeaders := none
          responseBody := none
          createdAt := db.now
          lockedUntil := some lockedUntil
          insertedBy := t } })

/-- `SELECT * FROM idempotency_keys WHERE key = $1` -/
def selectKey (key : String) :
    Sync (IdempotencyDb τ β) IdempotencyError (Option (IdempotencyRow τ β)) :=
  Sync.read fun db => db.keys.row key

/-- `UPDATE ... SET status = 'IN_PROGRESS', locked_until = $1
WHERE key = $2 AND status = 'IN_PROGRESS' AND locked_until < NOW() RETURNING *` -/
def reclaimKey (key : String) (lockedUntil : Time) :
    Sync (IdempotencyDb τ β) IdempotencyError Bool := fun db =>
  match db.keys.row key with
  | none => some (.ok false, db)
  | some row =>
    if row.status = .inProgress ∧ row.lockedUntil.any (fun u => u < db.now) then
      some (.ok true, { db with
        keys := db.keys.set key { row with
          status := .inProgress
          lockedUntil := some lockedUntil } })
    else some (.ok false, db)

/-- `UPDATE ... SET status = 'COMPLETED', ..., locked_until = NULL WHERE key = $4` -/
def complete (t : τ) (key : String) (statusCode : ℕ) (headers : List (String × String))
    (body : Option β) : Sync (IdempotencyDb τ β) IdempotencyError Unit := fun db =>
  match db.keys.row key with
  | none => some (.ok (), db)
  | some row => some (.ok (), { db with
      keys := db.keys.set key { row with
        status := .completed
        responseStatusCode := some statusCode
        responseHeaders := some headers
        responseBody := body
        lockedUntil := none }
      stored := db.stored ++
        [⟨t, row.insertedBy, ((db.running t).map Lease.row).getD t, statusCode, body⟩] })

/-- `DELETE FROM idempotency_keys WHERE key = $1 AND status = 'IN_PROGRESS'` -/
def fail (key : String) : Sync (IdempotencyDb τ β) IdempotencyError Unit := fun db =>
  if (db.keys.row key).any (fun row => row.status = .inProgress) then
    some (.ok (), { db with keys := db.keys.erase key })
  else some (.ok (), db)

/-- The request is told that it has acquired the key: its handler begins. -/
def IdempotencyDb.grant [DecidableEq τ] (db : IdempotencyDb τ β) (t : τ) (lease : Lease τ) : IdempotencyDb τ β :=
  { db with running := Function.update db.running t (some lease), runs := db.runs ++ [t] }

/-- The handler has ended, or has stopped. -/
def IdempotencyDb.release [DecidableEq τ] (db : IdempotencyDb τ β) (t : τ) : IdempotencyDb τ β :=
  { db with running := Function.update db.running t none }

end Store

/-! ## `acquire` -/

/-- How the handler of a request ends: its response is flushed, which emits `finish`; it comes to
its end too, with this status, but the connection closes before that; or the process stops. -/
inductive HandlerOutcome (β : Type)
  | finished (statusCode : ℕ) (body : Option β)
  | closed (statusCode : ℕ)
  | crashed

/-- The status that the handler comes to its end with. -/
def HandlerOutcome.statusCode {β : Type} : HandlerOutcome β → Option ℕ
  | .finished statusCode _ => some statusCode
  | .closed statusCode => some statusCode
  | .crashed => none

/-- What the surroundings decide about one request: how its statements end, in which attempt of
`acquire`, and how its handler ends. -/
structure RequestEnv (β : Type) where
  onInsert : ℕ → Fate
  onSelect : ℕ → Fate
  onReclaim : Fate
  onPersist : Fate
  outcome : HandlerOutcome β

/-- 30 seconds, the default of `lockDurationMs`. -/
def lockDurationMs : Time := 30000

section Acquire

variable {τ β : Type} [DecidableEq τ]

open Async (await)

/-- A statement that acquires the key where it says so. -/
def acquiring (fate : Fate) (t : τ) (lease : Lease τ)
    (s : Sync (IdempotencyDb τ β) IdempotencyError Bool) :
    Sync (IdempotencyDb τ β) IdempotencyError Bool := do
  let acquired ← autocommit .database fate s
  if acquired then Sync.modify fun db => db.grant t lease
  pure acquired

/-- The `n`-th attempt of `acquire`. Where the row it conflicted with is gone, it starts `again`. -/
def acquireOnce (env : RequestEnv β) (t : τ) (key path method hash : String)
    (userId : Option String) (n : ℕ)
    (again : Async (IdempotencyDb τ β) IdempotencyError (AcquireResult β)) :
    Async (IdempotencyDb τ β) IdempotencyError (AcquireResult β) := do
  let lockedUntil ← await (Sync.read fun db => db.now + lockDurationMs)
  let inserted ← await (acquiring (env.onInsert n) t ⟨lockedUntil, t⟩
    (insertKey t key path method hash userId lockedUntil))
  if inserted then return .acquired
  match ← await (autocommit .database (env.onSelect n) (selectKey key)) with
  | none => again
  | some row =>
    if row.requestHash ≠ hash then return .mismatch
    if row.status = .completed then return .completed (row.record key)
    if ← await (Sync.read fun db => row.lockedUntil.any (fun u => u < db.now)) then
      if ← await (acquiring env.onReclaim t ⟨lockedUntil, row.insertedBy⟩
          (reclaimKey key lockedUntil)) then
        return .acquired
    return .inProgress

/-- `PostgresIdempotencyStore.acquire`, from its `n`-th attempt on. It calls itself at most
`retries` times; then it waits for ever. -/
def acquire (env : RequestEnv β) (t : τ) (key path method hash : String) (userId : Option String) :
    (n retries : ℕ) → Async (IdempotencyDb τ β) IdempotencyError (AcquireResult β)
  | n, 0 => acquireOnce env t key path method hash userId n (await (Sync.ofOption none))
  | n, retries + 1 => acquireOnce env t key path method hash userId n
      (acquire env t key path method hash userId (n + 1) retries)

end Acquire

/-! ## `createIdempotencyMiddleware` -/

inductive HeaderValue
  | one (value : String)
  | many (values : List String)

/-- A request. `body` is `JSON.stringify(req.body)`, where `req.body` is truthy. -/
structure HttpRequest where
  idempotencyKey : Option HeaderValue
  userId : Option String
  method : String
  baseUrl : String
  path : String
  body : Option String

/-- `String.prototype.trim` -/
def trim (s : String) : String :=
  String.ofList ((s.toList.dropWhile isWhiteSpace).reverse.dropWhile isWhiteSpace).reverse

/-- `length`, which counts UTF-16 code units. -/
def utf16Length (s : String) : ℕ :=
  (s.toList.map fun c => if c.toNat < 0x10000 then 1 else 2).sum

namespace HttpRequest

/-- The key the middleware works with, if there is one. -/
def key (req : HttpRequest) : Option String :=
  match req.idempotencyKey with
  | some (.one rawKey) => if rawKey = "" ∨ trim rawKey = "" then none else some (trim rawKey)
  | _ => none

def canonicalBody (req : HttpRequest) : String := req.body.getD ""

def requestPath (req : HttpRequest) : String :=
  if req.baseUrl = "" then req.path else req.baseUrl ++ req.path

end HttpRequest

inductive ResponseBody (β : Type)
  | error (code message : String)
  | json (body : Option β)
deriving DecidableEq

/-- What the client receives; `idempotentReplay` is the header `Idempotent-Replay`. -/
structure HttpResponse (β : Type) where
  statusCode : ℕ
  idempotentReplay : Bool
  body : ResponseBody β
deriving DecidableEq

section Middleware

variable {τ β : Type} [DecidableEq τ]

open Async (await)

def invalidKey : HttpResponse β :=
  ⟨400, false, .error "INVALID_IDEMPOTENCY_KEY"
    "Idempotency-Key length must not exceed 255 characters."⟩

def payloadMismatch : HttpResponse β :=
  ⟨422, false, .error "IDEMPOTENCY_KEY_PAYLOAD_MISMATCH"
    "Idempotency-Key was previously used with a different request payload."⟩

def keyInProgress : HttpResponse β :=
  ⟨409, false, .error "IDEMPOTENCY_KEY_IN_PROGRESS"
    ("A request with this idempotency key is currently in progress. " ++ "Please retry shortly.")⟩

/-- `res.status(record.responseStatusCode || 200).json(record.responseBody)` -/
def replay (record : IdempotencyRecord β) : HttpResponse β :=
  ⟨match record.responseStatusCode with
    | some (n + 1) => n + 1
    | _ => 200, true, .json record.responseBody⟩

/-- What the handler's client receives, if anything. -/
def HandlerOutcome.response : HandlerOutcome β → Option (HttpResponse β)
  | .finished statusCode body => some ⟨statusCode, false, .json body⟩
  | .closed _ => none
  | .crashed => none

/-- `complete` or `fail`, whose error is caught. After it the request is done with the key. -/
def persist (fate : Fate) (t : τ) (s : Sync (IdempotencyDb τ β) IdempotencyError Unit) :
    Sync (IdempotencyDb τ β) IdempotencyError Unit := do
  tryCatch (autocommit .database fate s) fun _ => pure ()
  Sync.modify fun db => db.release t

/-- The handler runs, and `finish` is emitted unless it stops or its client is gone. -/
def runHandler (env : RequestEnv β) (t : τ) (key : String) :
    Async (IdempotencyDb τ β) IdempotencyError (Option (HttpResponse β)) := do
  match env.outcome with
  | .finished statusCode body =>
    if 200 ≤ statusCode ∧ statusCode < 500 then
      await (persist env.onPersist t
        (complete t key statusCode [("content-type", "application/json")] body))
    else await (persist env.onPersist t (fail key))
  | _ => await (Sync.modify fun db => db.release t)
  pure env.outcome.response

def idempotencyMiddleware (sha256 : String → String) (env : RequestEnv β) (retries : ℕ) (t : τ)
    (req : HttpRequest) :
    Async (IdempotencyDb τ β) IdempotencyError (Option (HttpResponse β)) :=
  match req.key with
  | none => pure env.outcome.response
  | some key =>
    if 255 < utf16Length key then pure (some invalidKey)
    else do
      match ← acquire env t key req.requestPath req.method (sha256 req.canonicalBody)
          (truthy req.userId) 0 retries with
      | .mismatch => pure (some payloadMismatch)
      | .completed record => pure (some (replay record))
      | .inProgress => pure (some keyInProgress)
      | .acquired => runHandler env t key

/-- A request comes in, or time passes. -/
inductive HttpCall (β : Type)
  | request (env : RequestEnv β) (retries : ℕ) (req : HttpRequest)
  | tick (ms : ℕ)

def HttpCall.program (sha256 : String → String) (t : τ) :
    HttpCall β → Async (IdempotencyDb τ β) IdempotencyError (Option (HttpResponse β))
  | .request env retries req => idempotencyMiddleware sha256 env retries t req
  | .tick ms => do
    await (Sync.modify fun db => { db with now := db.now + ms })
    pure none

/-- The calls, none of which has started, before an empty table. -/
def httpCalls (sha256 : String → String) (calls : τ → HttpCall β) :
    Config τ (IdempotencyDb τ β) IdempotencyError (Option (HttpResponse β)) :=
  ⟨.empty, fun t => (calls t).program sha256 t⟩

/-- The key the call may acquire. -/
def HttpCall.key : HttpCall β → Option String
  | .request _ _ req => req.key.filter fun key => utf16Length key ≤ 255
  | .tick _ => none

/-- How the handler of the call ends. A tick has none. -/
def HttpCall.outcome : HttpCall β → HandlerOutcome β
  | .request env _ _ => env.outcome
  | .tick _ => .crashed

/-- How the statement ends that follows the handler. -/
def HttpCall.onPersist : HttpCall β → Fate
  | .request env _ _ => env.onPersist
  | .tick _ => .answered

def HttpCall.canonicalBody : HttpCall β → String
  | .request _ _ req => req.canonicalBody
  | .tick _ => ""

/-- The method, the path and the user of the request. -/
def HttpCall.origin : HttpCall β → Option (String × String × Option String)
  | .request _ _ req => some (req.method, req.requestPath, truthy req.userId)
  | .tick _ => none

/-- The first attempt of the request's `acquire` is answered. -/
def HttpCall.IsAnswered : HttpCall β → Prop
  | .request env _ _ => env.onInsert 0 = .answered ∧ env.onSelect 0 = .answered
  | .tick _ => True

/-- The handlers under the key that run have not outrun their locks. -/
def InTime (calls : τ → HttpCall β) (key : String) (db : IdempotencyDb τ β) : Prop :=
  ∀ t lease, (calls t).key = some key → db.running t = some lease → db.now ≤ lease.lockedUntil

/-- The handlers that have begun under the key. -/
def runsUnder (calls : τ → HttpCall β) (key : String) (db : IdempotencyDb τ β) : List τ :=
  db.runs.filter fun t => (calls t).key = some key

/-- The table says that the response is the key's. -/
def IsRecorded (key : String) (statusCode : ℕ) (body : Option β) (db : IdempotencyDb τ β) : Prop :=
  ∃ row, db.keys.row key = some row ∧ row.status = .completed
    ∧ row.responseStatusCode = some statusCode ∧ row.responseBody = body

/-- The call is answered with the recorded response, or one of its statements failed. -/
def HttpCall.AnsweredWith (call : HttpCall β) (statusCode : ℕ) (body : Option β)
    (r : Except IdempotencyError (Option (HttpResponse β))) : Prop :=
  r = .ok (some ⟨statusCode, true, .json body⟩) ∨ r = .error .database ∧ ¬ call.IsAnswered

end Middleware

end LaunchPad
