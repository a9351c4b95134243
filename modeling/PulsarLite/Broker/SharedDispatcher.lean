import PulsarLite.Broker.MultipleConsumers

/-!
# The Shared dispatcher

Consumers take turns, those of a higher priority first. A message that waits for
redelivery goes before a new one.
-/

namespace PulsarLite.Broker

open Library Storage

def defaultMaxUnackedMessagesPerConsumer : Nat := 50000

structure SharedDispatcher extends MultipleConsumers where
  consumerOrder : List Nat
  roundRobinIndex : Nat
  maxUnackedMessages : Nat

namespace SharedDispatcher

def new : SharedDispatcher where
  consumers := .empty
  totalAvailablePermits := 0
  readPosition := none
  redeliveryController := .new false
  consumerOrder := []
  roundRobinIndex := 0
  maxUnackedMessages := defaultMaxUnackedMessagesPerConsumer

variable (dispatcher : SharedDispatcher)

def modify (change : MultipleConsumers → MultipleConsumers) : SharedDispatcher :=
  { dispatcher with toMultipleConsumers := change dispatcher.toMultipleConsumers }

def orderedConsumers : List (Nat × Consumer) :=
  dispatcher.consumerOrder.filterMap fun consumerId =>
    (dispatcher.consumers.find consumerId).map fun consumer => (consumerId, consumer)

def firstConsumerIndexOfPriority (consumers : List (Nat × Consumer)) (targetPriority : Int) :
    Option Nat :=
  consumers.findIdx? fun consumer => decide (consumer.2.priorityLevel = targetPriority)

variable (consumers : List (Nat × Consumer)) (currentIndex : Nat)

def findAvailableConsumerFromHigherPriority (targetPriority : Int) : Option Nat :=
  ((consumers.take currentIndex).takeWhile fun consumer =>
    decide (consumer.2.priorityLevel < targetPriority)).findIdx? fun consumer =>
      decide (0 < consumer.2.availablePermits)

/-- Once around the consumers of one priority. The answer is on the left if the
search is over, and on the right where the priority ends if nobody has permits. -/
def scanPriorityLevel (consumers : List (Nat × Consumer)) (targetPriority : Int)
    (currentIndex : Nat) : Nat → Nat → Nat → Option Nat ⊕ Nat
  | 0, _, endPriorityLevelIndex => .inr endPriorityLevelIndex
  | fuel + 1, scanIndex, endPriorityLevelIndex =>
    let scanned : Option Nat ⊕ (Nat × Nat) :=
      match consumers[scanIndex]?.filter
          fun consumer => decide (consumer.2.priorityLevel = targetPriority) with
      | some consumer =>
        if 0 < consumer.2.availablePermits then .inl (some scanIndex)
        else .inr (scanIndex + 1, endPriorityLevelIndex)
      | none =>
        match firstConsumerIndexOfPriority consumers targetPriority with
        | none => .inl none
        | some first => .inr (first, scanIndex)
    match scanned with
    | .inl answer => .inl answer
    | .inr (scanIndex, endPriorityLevelIndex) =>
      if scanIndex = currentIndex then .inr endPriorityLevelIndex
      else scanPriorityLevel consumers targetPriority currentIndex fuel scanIndex
        endPriorityLevelIndex

def findAvailableConsumerFromSameOrLowerPriority : Option Nat :=
  match consumers[currentIndex]? with
  | none => none
  | some current =>
    if 0 < current.2.availablePermits then some currentIndex
    else
      match scanPriorityLevel consumers current.2.priorityLevel currentIndex
          (consumers.length + 1) (currentIndex + 1) currentIndex with
      | .inl answer => answer
      | .inr endPriorityLevelIndex =>
        ((consumers.drop endPriorityLevelIndex).findIdx? fun consumer =>
          decide (0 < consumer.2.availablePermits)).map (endPriorityLevelIndex + ·)

def nextConsumerIndex : Option Nat :=
  match consumers[currentIndex]? with
  | none => none
  | some current =>
    (if current.2.priorityLevel ≠ 0 then
      findAvailableConsumerFromHigherPriority consumers currentIndex current.2.priorityLevel
    else none).or (findAvailableConsumerFromSameOrLowerPriority consumers currentIndex)

def getNextAvailableConsumer : Option (Nat × Consumer) × SharedDispatcher :=
  let consumers := dispatcher.orderedConsumers
  match nextConsumerIndex consumers (dispatcher.roundRobinIndex % consumers.length) with
  | none => (none, dispatcher)
  | some index =>
    (consumers[index]?, { dispatcher with roundRobinIndex := (index + 1) % consumers.length })

variable (consumerId : Nat)

def insertConsumerOrder (priorityLevel : Int) : SharedDispatcher :=
  let insertAt := (dispatcher.consumerOrder.findIdx? fun existing =>
    (dispatcher.consumers.find existing).any fun consumer =>
      decide (priorityLevel < consumer.priorityLevel)).getD dispatcher.consumerOrder.length
  { dispatcher with consumerOrder := dispatcher.consumerOrder.insertIdx insertAt consumerId }

def removeConsumerOrder : SharedDispatcher :=
  match dispatcher.consumerOrder.findIdx? fun existing => decide (existing = consumerId) with
  | none => dispatcher
  | some index =>
    let consumerOrder := dispatcher.consumerOrder.eraseIdx index
    let current := dispatcher.roundRobinIndex
    { dispatcher with
      consumerOrder := consumerOrder
      roundRobinIndex :=
        if consumerOrder.length = 0 then 0
        else if index < current then current - 1
        else if consumerOrder.length ≤ current then current % consumerOrder.length
        else current }

def addConsumer (consumer : Consumer) : Option SharedDispatcher :=
  if consumerId ∈ dispatcher.consumers then none
  else
    let joined := { dispatcher with
      consumers := dispatcher.consumers.insert consumerId consumer }
    some (joined.insertConsumerOrder consumerId consumer.priorityLevel)

def removeConsumerWithRecovery : SharedDispatcher :=
  match dispatcher.consumers.find consumerId with
  | none => dispatcher
  | some consumer =>
    let left := { dispatcher with consumers := dispatcher.consumers.erase consumerId }
    let pending := consumer.closePendingAcks.drainPendingAcks.1
    (left.removeConsumerOrder consumerId).modify fun left =>
      (left.subtractTotalPermits consumer.availablePermitsNow).addToRedeliveryQueue
        (pending.map fun entry => (entry.1, entry.2.redeliveryCount + 1))

def consumerFlow (additionalPermits : Nat) : SharedDispatcher :=
  dispatcher.modify fun dispatcher => dispatcher.addTotalPermits additionalPermits

def isMessagePending (messageId : MessageId) : Bool :=
  dispatcher.orderedConsumers.any fun consumer => consumer.2.hasPendingAck messageId

abbrev Round := Flow DispatchError (Pass SharedDispatcher)

variable (context : DispatchContext) (consumerId : Nat) (consumer : Consumer)

/-- An entry that was popped from the redelivery queue, for the consumer whose turn it is. -/
def redeliver (redelivery : RedeliveryEntry) (pass : Pass SharedDispatcher) : Round :=
  if context.reader.isAcknowledged redelivery.1 then .next pass
  else
    match context.reader.getMessageEntryById redelivery.1 with
    | none => .next pass
    | some entry =>
      let batchCount := messagesInBatch context.decode entry.metadata
      match consumer.tryUsePermits batchCount with
      | none => .stop { pass with
          dispatcher := pass.dispatcher.modify fun dispatcher =>
            dispatcher.restoreRedeliveryMessage (entry.messageId, redelivery.2) }
      | some charged =>
        match charged.sendMessage entry.messageId redelivery.2.redeliveryCount pass.slots with
        | (true, sent, slots) => .next {
            dispatcher := pass.dispatcher.modify fun dispatcher =>
              (dispatcher.chargeTotalPermits batchCount).putConsumer consumerId sent
            slots := slots
            delivered := pass.delivered ++
              [⟨consumerId, entry.messageId, entry.metadata, redelivery.2.redeliveryCount⟩]
            progress := pass.progress + 1 }
        | (false, unsent, slots) => .stop { pass with
            dispatcher := pass.dispatcher.modify fun dispatcher =>
              (((dispatcher.chargeTotalPermits batchCount).restoreRedeliveryMessage
                (entry.messageId, ⟨redelivery.2.redeliveryCount + 1, none⟩)).putConsumer
                  consumerId (unsent.addPermits batchCount)).addTotalPermits batchCount
            slots := slots }

/-- A message that was read, for the consumer whose turn it is. -/
def dispatchCandidate (candidate : ReadCandidate) (pass : Pass SharedDispatcher) : Round :=
  let batchCount := messagesInBatch context.decode candidate.metadata
  match consumer.tryUsePermits batchCount with
  | none => .stop pass
  | some charged =>
    match charged.sendMessage candidate.messageId 0 pass.slots with
    | (true, sent, slots) => .next {
        dispatcher := pass.dispatcher.modify fun dispatcher =>
          ((dispatcher.chargeTotalPermits batchCount).commitReadPosition
            candidate.nextPosition).putConsumer consumerId sent
        slots := slots
        delivered := pass.delivered ++
          [⟨consumerId, candidate.messageId, candidate.metadata, 0⟩]
        progress := pass.progress + 1 }
    | (false, unsent, slots) => .stop { pass with
        dispatcher := pass.dispatcher.modify fun dispatcher =>
          ((((dispatcher.chargeTotalPermits batchCount).addToRedeliveryQueue
            [(candidate.messageId, 1)]).commitReadPosition candidate.nextPosition).putConsumer
              consumerId (unsent.addPermits batchCount)).addTotalPermits batchCount
        slots := slots }

variable (pass : Pass SharedDispatcher)

def dispatchRound : Round :=
  match pass.dispatcher.getNextAvailableConsumer with
  | (none, dispatcher) => .stop { pass with dispatcher := dispatcher }
  | (some (consumerId, consumer), dispatcher) =>
    let pass := { pass with dispatcher := dispatcher }
    if dispatcher.maxUnackedMessages ≤ consumer.pendingAcks.bindings.length then .stop pass
    else
      match dispatcher.redeliveryController.popNext with
      | (some redelivery, controller) =>
        redeliver context consumerId consumer redelivery { pass with
          dispatcher := { dispatcher with redeliveryController := controller } }
      | (none, _) =>
        match nextDispatchableMessage context.reader dispatcher.isMessagePending context.fuel
            context.fuel dispatcher.readPosition with
        | (.error failure, readPosition) => .fail failure { pass with
            dispatcher := { dispatcher with readPosition := readPosition } }
        | (.ok none, readPosition) => .stop { pass with
            dispatcher := { dispatcher with readPosition := readPosition } }
        | (.ok (some candidate), readPosition) =>
          dispatchCandidate context consumerId consumer candidate { pass with
            dispatcher := { dispatcher with readPosition := readPosition } }

def dispatchMessagesBatch : Round :=
  let totalPermits := pass.dispatcher.totalAvailablePermits
  if totalPermits ≤ 0 then .stop { pass with progress := 0 }
  else
    .rounds (dispatchRound context) (min totalPermits.toNat dispatcherMaxRoundRobinBatchSize)
      { pass with progress := 0 }

def nextBatch : Round :=
  match dispatchMessagesBatch context pass with
  | .fail failure pass => .fail failure pass
  | .next pass | .stop pass =>
    if pass.progress = 0 then .stop pass
    else if pass.dispatcher.totalAvailablePermits = 0 then .stop pass
    else .next pass

def dispatchMessages : Round :=
  .rounds (nextBatch context) context.fuel pass

theorem next_batch_state :
    (nextBatch context pass).state = (dispatchMessagesBatch context pass).state := by
  unfold nextBatch
  generalize dispatchMessagesBatch context pass = flow
  cases flow with
  | fail failure last => rfl
  | next | stop =>
    dsimp only
    split_ifs <;> rfl

variable {context} {holds : Pass SharedDispatcher → Prop}
  (fresh : ∀ pass, holds pass → holds { pass with progress := 0 })
  (kept : ∀ pass, holds pass → holds (dispatchRound context pass).state)
include fresh kept

/-- What every round keeps, a batch keeps. -/
theorem next_batch_keeps_rounds (before : holds pass) : holds (nextBatch context pass).state := by
  rw [next_batch_state, dispatchMessagesBatch]
  split_ifs
  · exact fresh pass before
  · exact Flow.rounds_state holds kept _ (fresh pass before)

theorem dispatch_messages_keeps_rounds (before : holds pass) :
    holds (dispatchMessages context pass).state :=
  Flow.rounds_state holds (fun pass => next_batch_keeps_rounds pass fresh kept) _ before

end SharedDispatcher

end PulsarLite.Broker
