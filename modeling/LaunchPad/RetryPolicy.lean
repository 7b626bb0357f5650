import Mathlib.Algebra.Order.Ring.Rat
import Mathlib.Data.Rat.Floor

/-!
# The retry policy

`RetryPolicy.execute` calls a function until it succeeds, throws what is not worth a retry, or has
had all its attempts, and sleeps between two calls. Each attempt has one outcome, and draws its own
`Math.random()`. Numbers are the exact rationals they stand for.
-/

namespace LaunchPad

structure RetryPolicyOptions where
  maxAttempts : Option ℚ
  baseDelayMs : Option ℚ
  maxDelayMs : Option ℚ
  jitter : Option Bool

structure RetryError where
  message : String
  statusCode : Option ℚ
  code : Option String
  retryAfterSeconds : Option ℚ
deriving DecidableEq

/-- What a function may throw: anything. Only `null` and `undefined` have no properties. -/
inductive ThrownValue
  | null
  | undefined
  | error (e : RetryError)
deriving DecidableEq

/-- What `Math.random()` returns. -/
abbrev RandomDraw := { r : ℚ // 0 ≤ r ∧ r < 1 }

/-- What `execute` does before it ends. A sleep is the delay `setTimeout` is asked for. -/
inductive RetryStep
  | call (attempt : ℕ)
  | sleep (ms : ℚ)
deriving DecidableEq

/-- What `execute` did, how it ended, and whether that was the `throw` after its loop. -/
structure RetryRun (α : Type) where
  log : List RetryStep
  result : Except ThrownValue α
  afterLoop : Bool

namespace RetryRun

variable {α : Type}

def calls (r : RetryRun α) : List ℕ :=
  r.log.filterMap fun
    | .call attempt => some attempt
    | .sleep _ => none

def sleeps (r : RetryRun α) : List ℚ :=
  r.log.filterMap fun
    | .call _ => none
    | .sleep ms => some ms

end RetryRun

structure RetryPolicy where
  maxAttempts : ℚ
  baseDelayMs : ℚ
  maxDelayMs : ℚ
  jitter : Bool

namespace RetryPolicy

def new (options : Option RetryPolicyOptions) : RetryPolicy where
  maxAttempts := (options.bind (·.maxAttempts)).getD 3
  baseDelayMs := (options.bind (·.baseDelayMs)).getD 50
  maxDelayMs := (options.bind (·.maxDelayMs)).getD 1000
  jitter := (options.bind (·.jitter)).getD true

def networkErrorCodes : List String := ["ECONNRESET", "ETIMEDOUT", "EAI_AGAIN", "ENOTFOUND"]

/-- What reading a property of `null` or `undefined` throws. -/
def typeError (message : String) : ThrownValue := .error ⟨message, none, none, none⟩

/-- A status code of zero is falsy. -/
def isRetryableError (error : RetryError) : Bool :=
  if error.code.any networkErrorCodes.contains then true
  else match error.statusCode with
    | none => false
    | some statusCode =>
      if statusCode = 0 then false
      else if statusCode = 429 ∨ statusCode = 503 ∨ statusCode = 504 then true
      else if statusCode ≥ 400 ∧ statusCode < 500 then false
      else if statusCode ≥ 500 then true
      else false

/-- The answer, or what `error.code` throws. -/
def isRetryable : ThrownValue → Except ThrownValue Bool
  | .null => .error (typeError "Cannot read properties of null (reading 'code')")
  | .undefined => .error (typeError "Cannot read properties of undefined (reading 'code')")
  | .error e => .ok (isRetryableError e)

/-- `isRetryable` has read a property of `err` before. -/
def retryAfterSeconds : ThrownValue → Option ℚ
  | .null | .undefined => none
  | .error e => e.retryAfterSeconds

def exponential (p : RetryPolicy) (attempt : ℕ) : ℚ :=
  min p.maxDelayMs (p.baseDelayMs * 2 ^ attempt)

def computeBackoffMs (p : RetryPolicy) (random : RandomDraw) (attempt : ℕ)
    (retryAfterSeconds : Option ℚ) : ℚ :=
  match retryAfterSeconds with
  | some seconds => if seconds > 0 then seconds * 1000 else backoff
  | none => backoff
where
  backoff : ℚ :=
    if p.jitter then ⌊random.1 * p.exponential attempt⌋ else p.exponential attempt

/-- `execute` from an attempt on. -/
def executeFrom {α : Type} (p : RetryPolicy) (fn : ℕ → Except ThrownValue α)
    (random : ℕ → RandomDraw) (attempt : ℕ) (lastError : ThrownValue) : RetryRun α :=
  if (attempt : ℚ) < p.maxAttempts then
    match fn attempt with
    | .ok value => ⟨[.call attempt], .ok value, false⟩
    | .error err =>
      match isRetryable err with
      | .error typeError => ⟨[.call attempt], .error typeError, false⟩
      | .ok retryable =>
        if !retryable then ⟨[.call attempt], .error err, false⟩
        else if (attempt : ℚ) = p.maxAttempts - 1 then ⟨[.call attempt], .error err, false⟩
        else
          let sleepMs := p.computeBackoffMs (random attempt) attempt (retryAfterSeconds err)
          let rest := executeFrom p fn random (attempt + 1) err
          { rest with log := .call attempt :: .sleep sleepMs :: rest.log }
  else ⟨[], .error lastError, true⟩
termination_by ⌈p.maxAttempts⌉₊ - attempt
decreasing_by
  have := Nat.lt_ceil.2 ‹(attempt : ℚ) < p.maxAttempts›
  omega

def execute {α : Type} (p : RetryPolicy) (fn : ℕ → Except ThrownValue α)
    (random : ℕ → RandomDraw) : RetryRun α :=
  executeFrom p fn random 0 .undefined

end RetryPolicy

end LaunchPad
