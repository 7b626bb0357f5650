import Mathlib.Data.List.AList

/-!
# Single flight

`RequestCoalescer.do` hands a caller the promise there is for its key, or calls `fn` and puts the
promise of what that starts under the key; when `fn`'s promise has settled, the `finally` takes the
key out again, and the callers that share the promise get its outcome. A function that runs may call
`do` itself before it returns, so calls of `do` nest; and it may throw instead of returning a
promise, which then is what the caller gets.
-/

namespace LaunchPad

/-- The fields of a coalescer, over the promises it holds. -/
structure RequestCoalescer (P : Type) where
  inFlight : AList fun _ : String => P
  coalescedCount : ℕ
  primaryExecutions : ℕ

structure CoalescerStats where
  activeInFlight : ℕ
  primaryExecutions : ℕ
  coalescedCount : ℕ
deriving DecidableEq

namespace RequestCoalescer

variable {P : Type}

def new : RequestCoalescer P := ⟨∅, 0, 0⟩

/-- `do` up to the call of `fn`: the promise it returns instead, if there is one. -/
def enter (key : String) (c : RequestCoalescer P) : Option P × RequestCoalescer P :=
  match c.inFlight.lookup key with
  | some existing => (some existing, { c with coalescedCount := c.coalescedCount + 1 })
  | none => (none, { c with primaryExecutions := c.primaryExecutions + 1 })

/-- `do` once `fn` has returned. -/
def register (key : String) (promise : P) (c : RequestCoalescer P) : RequestCoalescer P :=
  { c with inFlight := c.inFlight.insert key promise }

/-- What `do` leaves to the `finally`. -/
def cleanUp (key : String) (c : RequestCoalescer P) : RequestCoalescer P :=
  { c with inFlight := c.inFlight.erase key }

def getStats (c : RequestCoalescer P) : CoalescerStats :=
  ⟨c.inFlight.keys.length, c.primaryExecutions, c.coalescedCount⟩

def resetStats (c : RequestCoalescer P) : RequestCoalescer P :=
  { c with primaryExecutions := 0, coalescedCount := 0 }

end RequestCoalescer

variable (ε α : Type)

/-- How far an execution is: its function runs, its promise is registered, has settled, has been
cleaned up after. A function that throws registers no promise. -/
inductive Flight
  | running
  | pending
  | settled (outcome : Except ε α)
  | done (outcome : Except ε α)
  | thrown (error : ε)

structure Execution where
  key : String
  flight : Flight ε α

/-- A call of `do`, with the execution whose promise it returns, and what came of that. -/
structure Caller where
  key : String
  execution : ℕ
  received : Option (Except ε α)

/-- A coalescer, with the executions it started and the calls it had, each in order. The executions
whose functions run are on a stack, the innermost first. -/
structure Coalescing where
  coalescer : RequestCoalescer ℕ
  executions : List (Execution ε α)
  callers : List (Caller ε α)
  stack : List ℕ

/-- What happens around a coalescer. The `call` of a running function nests in it. -/
inductive CoalescerEvent
  | call (key : String)
  | returns
  | throws (error : ε)
  | settle (execution : ℕ) (outcome : Except ε α)
  | cleanUp (execution : ℕ)
  | deliver (caller : ℕ)
  | resetStats

variable {ε α}

namespace Flight

/-- What the promise has settled to. -/
def outcome : Flight ε α → Option (Except ε α)
  | .done outcome => some outcome
  | .thrown error => some (.error error)
  | _ => none

/-- The promise is registered, until it is cleaned up after. -/
def Registered : Flight ε α → Prop
  | .pending => True
  | .settled _ => True
  | _ => False

/-- Started, and not over. -/
def Active : Flight ε α → Prop
  | .running => True
  | .pending => True
  | .settled _ => True
  | _ => False

end Flight

/-- The executions, one of which is this far now. -/
def moved (executions : List (Execution ε α)) (execution : ℕ) (flight : Flight ε α) :
    List (Execution ε α) :=
  executions.modify execution fun x => { x with flight }

namespace Coalescing

def new : Coalescing ε α := ⟨.new, [], [], []⟩

/-- One event, where it can happen. A promise settles at any time, the callbacks come after. -/
def step : CoalescerEvent ε α → Coalescing ε α → Option (Coalescing ε α)
  | .call key, s =>
    match s.coalescer.enter key with
    | (some existing, coalescer) =>
      some { s with coalescer, callers := s.callers ++ [⟨key, existing, none⟩] }
    | (none, coalescer) =>
      some ⟨coalescer, s.executions ++ [⟨key, .running⟩],
        s.callers ++ [⟨key, s.executions.length, none⟩], s.executions.length :: s.stack⟩
  | .returns, s =>
    match s.stack with
    | execution :: stack => s.executions[execution]?.map fun x =>
      { s with coalescer := s.coalescer.register x.key execution,
               executions := moved s.executions execution .pending, stack }
    | [] => none
  | .throws error, s =>
    match s.stack with
    | execution :: stack =>
      some { s with executions := moved s.executions execution (.thrown error), stack }
    | [] => none
  | .settle execution outcome, s =>
    match s.executions[execution]? with
    | some ⟨_, .pending⟩ =>
      some { s with executions := moved s.executions execution (.settled outcome) }
    | _ => none
  | .cleanUp execution, s =>
    match s.executions[execution]? with
    | some ⟨key, .settled outcome⟩ =>
      some { s with coalescer := s.coalescer.cleanUp key,
                    executions := moved s.executions execution (.done outcome) }
    | _ => none
  | .deliver caller, s =>
    match s.callers[caller]? with
    | some ⟨_, execution, none⟩ =>
      (s.executions[execution]?.bind fun x => x.flight.outcome).map fun outcome =>
        { s with callers := s.callers.modify caller fun c => { c with received := some outcome } }
    | _ => none
  | .resetStats, s => some { s with coalescer := s.coalescer.resetStats }

end Coalescing

/-- A function calls `do` on the key it runs for, or one it is called for does. -/
def CoalescerEvent.Reenters : CoalescerEvent ε α → Coalescing ε α → Prop
  | .call key, s => ∃ e ∈ s.stack, s.executions[e]?.map Execution.key = some key
  | _, _ => False

instance : (event : CoalescerEvent ε α) → (s : Coalescing ε α) → Decidable (event.Reenters s)
  | .call key, s =>
    inferInstanceAs (Decidable (∃ e ∈ s.stack, s.executions[e]?.map Execution.key = some key))
  | .returns, _ | .throws _, _ | .settle _ _, _ | .cleanUp _, _ | .deliver _, _ | .resetStats, _ =>
    inferInstanceAs (Decidable False)

/-- The calls since `resetStats`, after one more event. -/
def CoalescerEvent.count (calls : ℕ) : CoalescerEvent ε α → ℕ
  | .call _ => calls + 1
  | .resetStats => 0
  | _ => calls

/-- The calls since `resetStats` was called last. -/
def callsSinceReset (events : List (CoalescerEvent ε α)) : ℕ :=
  events.foldl CoalescerEvent.count 0

end LaunchPad
