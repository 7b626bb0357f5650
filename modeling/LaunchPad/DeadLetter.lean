import LaunchPad.Inbox

/-!
# Deliveries that are tried again, or put aside

`ResilientMessageConsumer.consume` tries an action until it succeeds, puts the event aside in
`dead_letter_messages` where the error is not one that passes, or where there have been enough
attempts. `consume` is given the action; here it is `IdempotentConsumer.processTransactional`.
-/

namespace LaunchPad

open Interleave Rows

/-! ## Errors -/

/-- What an action throws, as `consume` looks at it. -/
inductive ThrownError
  | transientError (message : String)
  | permanentPoisonError (message : String)
  | error (message : String)
  | other (text : String)
deriving DecidableEq

/-- `error.message`, where `error` is `err`, or `new Error(String(err))` if it is no `Error`. -/
def ThrownError.message : ThrownError → String
  | .transientError message => message
  | .permanentPoisonError message => message
  | .error message => message
  | .other text => text

/-- `toLowerCase`, as far as it yields letters of the words below: besides the ASCII letters, the
Kelvin sign becomes `k`. -/
def toLowerCase (s : String) : List Char :=
  s.toList.map fun c => if c = '\u212a' then 'k' else c.toLower

def includes (s : List Char) (word : String) : Bool := decide (word.toList <:+: s)

def isTransientError : ThrownError → Bool
  | .transientError _ => true
  | thrown =>
    let msg := toLowerCase thrown.message
    includes msg "deadlock" || includes msg "connection reset" || includes msg "timeout"
      || includes msg "econnrefused" || includes msg "rate limit" || includes msg "503"
      || includes msg "429"

/-! ## `ResilientMessageConsumer.consume` -/

inductive ConsumeStatus
  | success
  | dlqDiverted
deriving DecidableEq

structure ConsumeResult where
  status : ConsumeStatus
  attempts : ℕ
  deadLetterId : Option String
deriving DecidableEq

/-- What `consume` is given: the action, as it goes at each attempt, and the dead letter queue. -/
structure ConsumeEnv (W ε : Type) where
  maxAttempts : ℤ
  action : ℕ → Async W ε Unit
  thrown : ε → ThrownError
  moveToDeadLetter : String → ℕ → Async W ε String

section Consume

variable {W ε : Type}

open Async (await)

def divert (env : ConsumeEnv W ε) (errorMessage : String) (attempts : ℕ) :
    Async W ε ConsumeResult := do
  let deadLetterId ← env.moveToDeadLetter errorMessage attempts
  pure ⟨.dlqDiverted, attempts, some deadLetterId⟩

/-- The loop, with so many attempts left and so many made. The time slept is not modelled, only that
others run meanwhile. -/
def consumeFrom (env : ConsumeEnv W ε) : ℕ → ℕ → Async W ε ConsumeResult
  | 0, attempt => divert env "Max retry attempts exhausted" attempt
  | left + 1, attempt =>
    tryCatch
      (do
        env.action (attempt + 1)
        pure ⟨.success, attempt + 1, none⟩)
      fun err =>
        match env.thrown err with
        | .permanentPoisonError message => divert env message (attempt + 1)
        | thrown =>
          if isTransientError thrown = true ∧ left ≠ 0 then do
            await (pure ())
            consumeFrom env left (attempt + 1)
          else divert env thrown.message (attempt + 1)

def consume (env : ConsumeEnv W ε) : Async W ε ConsumeResult :=
  consumeFrom env env.maxAttempts.toNat 0

end Consume

/-! ## Over an idempotent consumer -/

inductive DeadLetterStatus
  | dead
  | replayed
  | discarded
deriving DecidableEq

/-- A row of `dead_letter_messages`. -/
structure DeadLetterRow where
  eventId : String
  consumerName : String
  errorMessage : String
  attempts : ℕ
  status : DeadLetterStatus
deriving DecidableEq

/-- The inbox of the consumers, and what they have put aside. -/
structure ConsumerDb (τ ω : Type) where
  inbox : InboxDb τ ω
  deadLetters : Table String DeadLetterRow

def ConsumerDb.setInbox {τ ω : Type} (v : ConsumerDb τ ω) (inbox : InboxDb τ ω) : ConsumerDb τ ω :=
  { v with inbox := inbox }

/-- An event delivered through `consume`: how it goes at each attempt, and what the surroundings
decide. -/
structure ResilientDelivery (ω : Type) where
  eventId : String
  consumerName : String
  maxAttempts : ℤ
  attempt : ℕ → Delivery ω
  thrown : InboxError → ThrownError
  deadLetterId : String
  onMove : Fate

section Calls

variable {τ ω : Type} [DecidableEq τ]

open Async (await)

omit [DecidableEq τ] in
/-- `INSERT INTO dead_letter_messages (...) VALUES (..., NOW(), 'DEAD') RETURNING id` -/
def insertDeadLetter (id : String) (row : DeadLetterRow) :
    Sync (ConsumerDb τ ω) InboxError String := fun v =>
  if (v.deadLetters.row id).isSome then some (.error .duplicateKey, v)
  else some (.ok id, { v with deadLetters := v.deadLetters.set id row })

omit [DecidableEq τ] in
def moveToDeadLetter (d : ResilientDelivery ω) (errorMessage : String) (attempts : ℕ) :
    Async (ConsumerDb τ ω) InboxError String :=
  await (autocommit .statementFailed d.onMove (insertDeadLetter d.deadLetterId
    ⟨d.eventId, d.consumerName, errorMessage, attempts, .dead⟩))

def consumeEnv (t : τ) (d : ResilientDelivery ω) : ConsumeEnv (ConsumerDb τ ω) InboxError where
  maxAttempts := d.maxAttempts
  action n := do
    let _ ← (processTransactional t (d.attempt n)).zoom ConsumerDb.inbox ConsumerDb.setInbox
    pure ()
  thrown := d.thrown
  moveToDeadLetter := moveToDeadLetter d

/-- The deliveries, none of which has started, before an empty inbox and no dead letters. -/
def consumeCalls (deliveries : τ → ResilientDelivery ω) :
    Config τ (ConsumerDb τ ω) InboxError ConsumeResult :=
  ⟨⟨.empty, .empty⟩, fun t => consume (consumeEnv t (deliveries t))⟩

end Calls

end LaunchPad
