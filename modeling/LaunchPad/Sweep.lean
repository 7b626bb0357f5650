import LaunchPad.Lib.Machine
import LaunchPad.Outbox

/-!
# The sweeps as a machine

Where a call on the outbox stands is told by its next statement and the records it still has in
hand. `OutboxCall.move` is the statement it makes there, and where it stands then; the statements
themselves are those of `Outbox`.
-/

namespace LaunchPad

open Interleave Rows

/-- Where a call stands: it has not begun, it is at its `n`-th record, it counts what is left, or
it has ended. -/
inductive SweepPhase (δ : Type)
  | start
  | publishing (n : ℕ) (record : OutboxRecord δ) (rest : List (OutboxRecord δ))
  | marking (n : ℕ) (record : OutboxRecord δ) (rest : List (OutboxRecord δ))
  | recording (n : ℕ) (err : OutboxError) (record : OutboxRecord δ)
      (rest : List (OutboxRecord δ))
  | counting
  | ended
deriving DecidableEq

namespace SweepPhase

variable {δ : Type}

/-- The head of the loop, before its `n`-th turn. -/
def loop (n : ℕ) : List (OutboxRecord δ) → SweepPhase δ
  | [] => counting
  | record :: rest => publishing n record rest

/-- The records a sweep has fetched and is not done with. -/
def held : SweepPhase δ → List (OutboxRecord δ)
  | publishing _ record rest => record :: rest
  | marking _ record rest => record :: rest
  | recording _ _ record rest => record :: rest
  | _ => []

@[simp] theorem held_start : (start : SweepPhase δ).held = [] := rfl

@[simp] theorem held_publishing (n : ℕ) (record : OutboxRecord δ) (rest : List (OutboxRecord δ)) :
    (publishing n record rest).held = record :: rest := rfl

@[simp] theorem held_marking (n : ℕ) (record : OutboxRecord δ) (rest : List (OutboxRecord δ)) :
    (marking n record rest).held = record :: rest := rfl

@[simp] theorem held_recording (n : ℕ) (err : OutboxError) (record : OutboxRecord δ)
    (rest : List (OutboxRecord δ)) : (recording n err record rest).held = record :: rest := rfl

@[simp] theorem held_counting : (counting : SweepPhase δ).held = [] := rfl

@[simp] theorem held_ended : (ended : SweepPhase δ).held = [] := rfl

@[simp] theorem held_loop (n : ℕ) (records : List (OutboxRecord δ)) :
    (loop n records).held = records := by
  cases records <;> rfl

end SweepPhase

section Moves

variable {τ δ : Type}

open SweepPhase

open Machine (segment) in
/-- The next statement of a call, and where it stands then. -/
def OutboxCall.move (t : τ) :
    OutboxCall δ → SweepPhase δ → Outbox τ δ → Option (Outbox τ δ × SweepPhase δ)
  | .insert dbError fate id event now, .start =>
    segment (autocommit dbError fate (insertOutbox dbError id event now)) (fun _ => .ended)
      fun _ => .ended
  | .publishPending env batchSize aggregateId, .start =>
    segment (autocommit env.dbError env.onFetch
      (fetchPendingBatch env.dbError env.picked batchSize aggregateId)) (loop 0) fun _ => .ended
  | .publishPending env _ _, .publishing n record rest =>
    segment (publish (env.rejection n) (env.onPublish n) t record.row.payload.eventType
      record.row.payload) (fun _ => .marking n record rest) fun err => .recording n err record rest
  | .publishPending env _ _, .marking n record rest =>
    segment (autocommit env.dbError (env.onMark n) (markPublished record.id (env.now n)))
      (fun _ => loop (n + 1) rest) fun err => .recording n err record rest
  | .publishPending env _ _, .recording n err record rest =>
    segment (autocommit env.dbError (env.onRecord n)
      (recordFailure env.dbError t record.id err.text)) (fun _ => loop (n + 1) rest)
      fun _ => .ended
  | .publishPending env _ aggregateId, .counting =>
    segment (autocommit env.dbError env.onCount (countPending aggregateId)) (fun _ => .ended)
      fun _ => .ended
  | _, _ => fun _ => none

/-- The calls as a machine. -/
def sweeps (calls : τ → OutboxCall δ) : Machine τ (SweepPhase δ) (Outbox τ δ) where
  start _ := .start
  move t := (calls t).move t

/-- The calls, none of which has started, before the outbox `db`. -/
def outboxFrom (db : Outbox τ δ) (calls : τ → OutboxCall δ) :
    Config τ (Outbox τ δ) OutboxError (Option PublishBatchSummary) :=
  ⟨db, fun t => (calls t).program t⟩

end Moves

end LaunchPad
