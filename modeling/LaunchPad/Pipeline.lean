import LaunchPad.DeadLetter
import LaunchPad.Lib.Stages
import LaunchPad.OutboxTransaction

/-!
# From the outbox to the consumers

`InMemoryMessageBroker` hands each message it accepts to the handlers of its topic, each in a task
of its own (`setImmediate`), of which nobody waits for the end. A handler here is a consumer:
`ResilientMessageConsumer.consume`, with `IdempotentConsumer.processTransactional` as its action.
The sweeps of `OutboxPublisher` publish to the broker, so that events go from the transactions that
insert them to the side effects of the consumers.
-/

namespace LaunchPad

open Interleave Rows

/-! ## `InMemoryMessageBroker` -/

/-- The broker: its handlers by topic, in the order they subscribed, what it has published, what is
to make it fail, and the tasks it has made. -/
structure InMemoryMessageBroker (η δ : Type) where
  handlers : String → List η
  publishedMessages : List (String × DomainEvent δ)
  isDown : Bool
  failCount : ℤ
  tasks : List (η × DomainEvent δ)

namespace InMemoryMessageBroker

variable {η δ : Type}

def publish (topic : String) (event : DomainEvent δ) :
    Sync (InMemoryMessageBroker η δ) String Unit := fun broker =>
  if broker.isDown then
    some (.error ("[MessageBroker Error]: Broker is down / connection refused for topic " ++ topic),
      broker)
  else if 0 < broker.failCount then
    some (.error ("[MessageBroker Error]: Simulated transient broker timeout on topic " ++ topic),
      { broker with failCount := broker.failCount - 1 })
  else
    some (.ok (), { broker with
      publishedMessages := broker.publishedMessages ++ [(topic, event)]
      tasks := broker.tasks ++ (broker.handlers topic).map fun handler => (handler, event) })

def subscribe (topic : String) (handler : η) : Sync (InMemoryMessageBroker η δ) String Unit :=
  Sync.modify fun broker => { broker with
    handlers := Function.update broker.handlers topic (broker.handlers topic ++ [handler]) }

def getMessagesForTopic (topic : String) (broker : InMemoryMessageBroker η δ) :
    List (DomainEvent δ) :=
  (broker.publishedMessages.filter fun m => m.1 = topic).map Prod.snd

end InMemoryMessageBroker

/-! ## Consumers -/

/-- A consumer: its name, how often it tries, and the statements it sends for an event. -/
structure Consumer (δ ω : Type) where
  consumerName : String
  maxAttempts : ℤ
  sideEffect : DomainEvent δ → List ω

/-- What the surroundings decide in one attempt. -/
structure AttemptEnv where
  now : Time
  onBegin : Fate
  onSelect : Fate
  onInsert : Fate
  onEffect : ℕ → Option Fate
  onComplete : Fate
  onCommit : Fate
  onRollback : Fate
  onCatch : Fate

/-- What the surroundings decide in one task. -/
structure TaskEnv where
  attempt : ℕ → AttemptEnv
  thrown : InboxError → ThrownError
  deadLetterId : String
  onMove : Fate

section Tasks

variable {τ δ ω : Type}

/-- The tasks that the messages of this log have made: one for each message that was accepted and
each handler of its topic. -/
def dispatches {η : Type} (handlers : String → List η) (log : List (BrokerEvent τ δ)) :
    List (η × DomainEvent δ) :=
  log.flatMap fun
    | .accepted _ topic event => (handlers topic).map fun handler => (handler, event)
    | .rejected _ _ _ => []

/-- `processTransactional(event, sideEffect)` as an attempt of the consumer. -/
def Consumer.attempt (consumer : Consumer δ ω) (event : DomainEvent δ) (env : AttemptEnv) :
    Delivery ω where
  eventId := event.eventId
  consumerName := consumer.consumerName
  sideEffect := consumer.sideEffect event
  now := env.now
  onBegin := env.onBegin
  onSelect := env.onSelect
  onInsert := env.onInsert
  onEffect := env.onEffect
  onComplete := env.onComplete
  onCommit := env.onCommit
  onRollback := env.onRollback
  onCatch := env.onCatch

/-- `consume(event, action)` -/
def Consumer.delivery (consumer : Consumer δ ω) (event : DomainEvent δ) (env : TaskEnv) :
    ResilientDelivery ω where
  eventId := event.eventId
  consumerName := consumer.consumerName
  maxAttempts := consumer.maxAttempts
  attempt n := consumer.attempt event (env.attempt n)
  thrown := env.thrown
  deadLetterId := env.deadLetterId
  onMove := env.onMove

variable [DecidableEq τ]

/-- Calls on the outbox and the tasks they lead to, none of which has started: the `n`-th task runs
once the broker has made it. -/
def pipeline (handlers : String → List (Consumer δ ω)) (calls : τ → SharedCall δ)
    (envs : ℕ → TaskEnv) :
    Config (τ ⊕ ℕ) (SharedOutbox τ δ × ConsumerDb ℕ ω) Empty
      (Except OutboxError (Option PublishBatchSummary) ⊕ Except InboxError ConsumeResult) :=
  (sharedCalls calls).feed ⟨.empty, .empty⟩ (fun n v => (dispatches handlers v.outbox.broker)[n]?)
    fun n task => consume (consumeEnv n (task.1.delivery task.2 (envs n)))

/-- The key under which a task has its event processed. -/
def taskKey (task : Consumer δ ω × DomainEvent δ) : InboxKey :=
  ⟨task.2.eventId, task.1.consumerName⟩

omit [DecidableEq τ] in
/-- The side effects that have been committed for an event and a consumer. -/
def effectsFor (handlers : String → List (Consumer δ ω))
    (w : SharedOutbox τ δ × ConsumerDb ℕ ω) (k : InboxKey) : List (ℕ × List ω) :=
  w.2.inbox.commits.filter fun p =>
    ((dispatches handlers w.1.outbox.broker)[p.1]?).map taskKey = some k

end Tasks

end LaunchPad
