import LaunchPad.DeadLetter
import LaunchPad.Outbox

/-!
# The dead letter queue

`DeadLetterQueueRepository` over the rows of `dead_letter_messages`, and `replay`, which runs an
action on the event of a record once more. `fetchById` returns the status of a record with the rest,
and the UPDATEs set it whatever it was.
-/

namespace LaunchPad

open Interleave Rows

/-- A row of `dead_letter_messages`, as `fetchById` returns it. -/
structure DeadLetterRecord (δ : Type) where
  id : String
  eventId : String
  consumerName : String
  payload : DomainEvent δ
  errorMessage : String
  attempts : ℕ
  failedAt : Time
  replayedAt : Option Time
  status : DeadLetterStatus
deriving DecidableEq

/-- The records by id, and what the actions work on. -/
structure DlqDb (δ ω : Type) where
  deadLetters : Table String (DeadLetterRecord δ)
  work : ω

/-- What the surroundings decide about a statement: what becomes of it, what `NOW()` is, and what is
thrown where it fails. -/
structure StatementEnv where
  fate : Fate
  now : Time
  dbError : ThrownError

structure ReplayResult where
  success : Bool
  error : Option String
deriving DecidableEq

section Queue

variable {δ ω : Type}

open Async (await)

namespace DeadLetterQueueRepository

/-- `id` is what `randomUUID` draws. -/
def moveToDeadLetter (env : StatementEnv) (id : String) (event : DomainEvent δ)
    (consumerName errorMessage : String) (attempts : ℕ) : Async (DlqDb δ ω) ThrownError String :=
  await (autocommit env.dbError env.fate fun db =>
    if (db.deadLetters.row id).isSome then some (.error env.dbError, db)
    else
      let record : DeadLetterRecord δ :=
        ⟨id, event.eventId, consumerName, event, errorMessage, attempts, env.now, none, .dead⟩
      some (.ok id, { db with deadLetters := db.deadLetters.set id record }))

def fetchById (env : StatementEnv) (id : String) :
    Async (DlqDb δ ω) ThrownError (Option (DeadLetterRecord δ)) :=
  await (autocommit env.dbError env.fate (Sync.read fun db => db.deadLetters.row id))

/-- `UPDATE dead_letter_messages SET ... WHERE id = $1` -/
def updateWhere (id : String) (set : DeadLetterRecord δ → DeadLetterRecord δ) (db : DlqDb δ ω) :
    DlqDb δ ω :=
  match db.deadLetters.row id with
  | none => db
  | some record => { db with deadLetters := db.deadLetters.set id (set record) }

def markReplayed (env : StatementEnv) (id : String) : Async (DlqDb δ ω) ThrownError Unit :=
  await (autocommit env.dbError env.fate (Sync.modify (updateWhere id fun record =>
    { record with status := .replayed, replayedAt := some env.now })))

def markDiscarded (env : StatementEnv) (id : String) : Async (DlqDb δ ω) ThrownError Unit :=
  await (autocommit env.dbError env.fate (Sync.modify (updateWhere id fun record =>
    { record with status := .discarded })))

end DeadLetterQueueRepository

/-- `err instanceof Error ? err.message : 'Replay failed'` -/
def ThrownError.replayMessage : ThrownError → String
  | .other _ => "Replay failed"
  | err => err.message

open DeadLetterQueueRepository in
/-- The status the record was read with is not looked at. -/
def ResilientMessageConsumer.replay (onFetch onMark : StatementEnv) (deadLetterId : String)
    (action : DomainEvent δ → Async (DlqDb δ ω) ThrownError Unit) :
    Async (DlqDb δ ω) ThrownError ReplayResult := do
  let record ← fetchById onFetch deadLetterId
  match record with
  | none => throw (.error ("Dead letter record not found: " ++ deadLetterId))
  | some record =>
    tryCatch
      (do
        action record.payload
        markReplayed onMark deadLetterId
        pure ⟨true, none⟩)
      fun err => pure ⟨false, some err.replayMessage⟩

/-- The end of an action, which is noted. -/
def ends {κ : Type} (entry : κ) (outcome : Except ThrownError Unit) :
    Sync (DlqDb δ (List κ)) ThrownError Unit :=
  fun db => some (outcome, { db with work := db.work ++ [entry] })

/-- An action that ends as it is told. -/
def acts {κ : Type} (entry : κ) (outcome : Except ThrownError Unit) :
    Async (DlqDb δ (List κ)) ThrownError Unit := await (ends entry outcome)

/-- An event as it is delivered through `consume`: how the action ends at each attempt, and the row
that a dead letter of it becomes. -/
structure Delivered (δ : Type) where
  event : DomainEvent δ
  consumerName : String
  maxAttempts : ℤ
  outcomes : ℕ → Except ThrownError Unit
  deadLetterId : String
  onMove : StatementEnv

def Delivered.env (d : Delivered δ) : ConsumeEnv (DlqDb δ (List ℕ)) ThrownError where
  maxAttempts := d.maxAttempts
  action attempt := acts attempt (d.outcomes attempt)
  thrown := id
  moveToDeadLetter errorMessage attempts := DeadLetterQueueRepository.moveToDeadLetter d.onMove
    d.deadLetterId d.event d.consumerName errorMessage attempts

end Queue

/-! ## Operations on the queue, side by side -/

/-- The end of an action: the call that ran it, and the record it was run for. -/
structure Performed (τ : Type) where
  call : τ
  deadLetterId : String
  outcome : Except ThrownError Unit

/-- A call on the queue. A `replay` is given an action by how it ends. -/
inductive DlqCall
  | replay (onFetch onMark : StatementEnv) (deadLetterId : String)
    (outcome : Except ThrownError Unit)
  | markDiscarded (env : StatementEnv) (id : String)
  | fetchById (env : StatementEnv) (id : String)

inductive DlqAnswer (δ : Type)
  | replayed (result : ReplayResult)
  | discarded
  | fetched (record : Option (DeadLetterRecord δ))
deriving DecidableEq

section Calls

variable {δ τ : Type}

def DlqCall.program (t : τ) :
    DlqCall → Async (DlqDb δ (List (Performed τ))) ThrownError (DlqAnswer δ)
  | .replay onFetch onMark deadLetterId outcome => do
    let result ← ResilientMessageConsumer.replay onFetch onMark deadLetterId fun _ =>
      acts ⟨t, deadLetterId, outcome⟩ outcome
    pure (.replayed result)
  | .markDiscarded env id => do
    DeadLetterQueueRepository.markDiscarded env id
    pure .discarded
  | .fetchById env id => do
    let record ← DeadLetterQueueRepository.fetchById env id
    pure (.fetched record)

/-- The calls, none of which has started, before the records there are. -/
def dlqCalls (calls : τ → DlqCall) (deadLetters : Table String (DeadLetterRecord δ)) :
    Config τ (DlqDb δ (List (Performed τ))) ThrownError (DlqAnswer δ) :=
  ⟨⟨deadLetters, []⟩, fun t => (calls t).program t⟩

end Calls

end LaunchPad
