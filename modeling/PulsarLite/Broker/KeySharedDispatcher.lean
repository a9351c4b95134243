import PulsarLite.Broker.MultipleConsumers

/-!
# The KeyShared dispatcher

The hash of a message's key decides on its consumer. The hashes of messages that
wait for redelivery are blocked: a new message with such a hash has to wait as
well.
-/

namespace PulsarLite.Broker

open Library Storage

structure KeySharedDispatcher extends MultipleConsumers where
  autoSplitAssignments : List (KeySharedHashRange × Nat)
  stickyAssignments : List (KeySharedHashRange × Nat)
  keySharedPolicy : KeySharedPolicy

namespace KeySharedDispatcher

def new (keySharedPolicy : Option KeySharedPolicy) : KeySharedDispatcher :=
  let keySharedPolicy := keySharedPolicy.getD {
    mode := .autoSplit
    ranges := []
    allowOutOfOrderDelivery := false }
  { consumers := .empty
    totalAvailablePermits := 0
    readPosition := none
    redeliveryController := .new (!keySharedPolicy.allowOutOfOrderDelivery)
    autoSplitAssignments := []
    stickyAssignments := []
    keySharedPolicy := keySharedPolicy }

variable (dispatcher : KeySharedDispatcher)

def modify (change : MultipleConsumers → MultipleConsumers) : KeySharedDispatcher :=
  { dispatcher with toMultipleConsumers := change dispatcher.toMultipleConsumers }

def hasSameKeySharedPolicy (policy : Option KeySharedPolicy) : Bool :=
  match policy with
  | none => decide (dispatcher.keySharedPolicy.mode = .autoSplit)
  | some policy => decide (policy.mode = dispatcher.keySharedPolicy.mode)

def activeAssignments : List (KeySharedHashRange × Nat) :=
  match dispatcher.keySharedPolicy.mode with
  | .autoSplit => dispatcher.autoSplitAssignments
  | .sticky => dispatcher.stickyAssignments

/-- The share of one consumer, in `i32` arithmetic. -/
def autoSplitRange (index total : Nat) : KeySharedHashRange where
  start := (wrapI32 (wrapI32 index * 65536)).tdiv (wrapI32 total)
  stop := (wrapI32 ((wrapI32 index + 1) * 65536)).tdiv (wrapI32 total) - 1

variable (consumers : OrderedMap Nat Consumer)

/-- The consumers share the hashes in the order of their ids. -/
def autoSplit : List (KeySharedHashRange × Nat) :=
  consumers.keys.zipIdx.map fun consumer =>
    (autoSplitRange consumer.2 consumers.keys.length, consumer.1)

def stickyRangesForConsumer (consumer : Consumer) : List KeySharedHashRange :=
  (consumer.keySharedPolicy.map KeySharedPolicy.ranges).getD []

def assignmentKey (assignment : KeySharedHashRange × Nat) : Int ×ₗ Int ×ₗ Nat :=
  toLex (assignment.1.start, toLex (assignment.1.stop, assignment.2))

def stickySplit : List (KeySharedHashRange × Nat) :=
  (consumers.bindings.flatMap fun consumer =>
    (stickyRangesForConsumer consumer.2).map fun range => (range, consumer.1)).mergeSort
      fun left right => decide (assignmentKey left ≤ assignmentKey right)

def rebuildAssignments : KeySharedDispatcher :=
  { dispatcher with
    autoSplitAssignments := autoSplit dispatcher.consumers
    stickyAssignments := stickySplit dispatcher.consumers }

def selectConsumerForHash (stickyKeyHash : Int) : Option (Nat × Consumer) :=
  dispatcher.activeAssignments.findSome? fun assignment =>
    if assignment.1.start ≤ stickyKeyHash ∧ stickyKeyHash ≤ assignment.1.stop then
      (dispatcher.consumers.find assignment.2).bind fun consumer =>
        if 0 < consumer.availablePermitsNow ∧ consumer.isWritable = true then
          some (assignment.2, consumer)
        else none
    else none

variable (consumerId : Nat)

def addConsumer (consumer : Consumer) : Option KeySharedDispatcher :=
  if consumerId ∈ dispatcher.consumers then none
  else if !dispatcher.hasSameKeySharedPolicy consumer.keySharedPolicy then none
  else some (dispatcher.modify fun dispatcher =>
    dispatcher.putConsumer consumerId consumer).rebuildAssignments

def removeConsumerWithRecovery : KeySharedDispatcher :=
  match dispatcher.consumers.find consumerId with
  | none => dispatcher.rebuildAssignments
  | some consumer =>
    let left := { dispatcher with consumers := dispatcher.consumers.erase consumerId }
    let pending := consumer.closePendingAcks.drainPendingAcks.1
    (left.modify fun left =>
      (left.subtractTotalPermits consumer.availablePermitsNow).addRedeliveryEntries
        (pending.map fun entry => (entry.1,
          { entry.2 with redeliveryCount := entry.2.redeliveryCount + 1 }))).rebuildAssignments

def consumerFlow (consumerId additionalPermits : Nat) : KeySharedDispatcher :=
  if consumerId ∈ dispatcher.consumers then
    dispatcher.modify fun dispatcher => dispatcher.addTotalPermits additionalPermits
  else dispatcher

def isMessagePending (messageId : MessageId) : Bool :=
  dispatcher.consumers.bindings.any fun consumer => consumer.2.hasPendingAck messageId

structure DispatchableRedelivery where
  entry : RedeliveryEntry
  stored : StoredMessage
  consumerId : Nat
  consumer : Consumer

/-- The loop of `pop_dispatchable_redelivery_message` over the entries that were
queued when it began. -/
def popDispatchable (context : DispatchContext) (dispatcher : KeySharedDispatcher) :
    List RedeliveryEntry → RedeliveryController →
      Option DispatchableRedelivery × RedeliveryController
  | [], controller => (none, controller)
  | queued :: rest, controller =>
    if context.reader.isAcknowledged queued.1 then
      popDispatchable context dispatcher rest (controller.remove queued.1)
    else
      match context.reader.getMessageEntryById queued.1 with
      | none => popDispatchable context dispatcher rest (controller.remove queued.1)
      | some stored =>
        let stickyKeyHash := queued.2.stickyKeyHash.getD
          (stickyKeyHashFromMetadata context.decode stored.metadata)
        if controller.hasInFlightHash stickyKeyHash then
          popDispatchable context dispatcher rest controller
        else
          match dispatcher.selectConsumerForHash stickyKeyHash with
          | none => popDispatchable context dispatcher rest controller
          | some (consumerId, consumer) =>
            match controller.takeForDeliveryWithHash queued.1 (some stickyKeyHash) with
            | (none, _) => popDispatchable context dispatcher rest controller
            | (some entry, controller) => (some {
                entry := entry
                stored := stored
                consumerId := consumerId
                consumer := consumer }, controller)

variable (context : DispatchContext)

def popDispatchableRedeliveryMessage
    (dispatcher : KeySharedDispatcher) : Option DispatchableRedelivery × KeySharedDispatcher :=
  let popped := popDispatchable context dispatcher
    dispatcher.redeliveryController.queuedEntries dispatcher.redeliveryController
  (popped.1, { dispatcher with redeliveryController := popped.2 })

structure Batch extends Pass KeySharedDispatcher where
  remainingDispatches : Nat

abbrev Round := Flow DispatchError Batch

def lessOne (remainingDispatches : Nat) : Nat := (remainingDispatches + (2 ^ 32 - 1)) % 2 ^ 32

/-- An entry that was taken from the redelivery queue. After a delivery the round
goes on to a new message. -/
def redeliver (redelivery : DispatchableRedelivery) (batch : Batch) : Round :=
  let stickyKeyHash := redelivery.entry.2.stickyKeyHash.getD
    (stickyKeyHashFromMetadata context.decode redelivery.stored.metadata)
  let batchCount := messagesInBatch context.decode redelivery.stored.metadata
  match redelivery.consumer.tryUsePermits batchCount with
  | none => .stop { batch with
      dispatcher := batch.dispatcher.modify fun dispatcher =>
        dispatcher.restoreRedeliveryMessage (redelivery.entry.1,
          { redelivery.entry.2 with stickyKeyHash := some stickyKeyHash }) }
  | some charged =>
    match charged.sendMessageWithStickyHash redelivery.stored.messageId
        redelivery.entry.2.redeliveryCount (some stickyKeyHash) batch.slots with
    | (true, sent, slots) => .next {
        dispatcher := batch.dispatcher.modify fun dispatcher =>
          (dispatcher.subtractTotalPermits batchCount).putConsumer redelivery.consumerId sent
        slots := slots
        delivered := batch.delivered ++ [⟨redelivery.consumerId, redelivery.stored.messageId,
          redelivery.stored.metadata, redelivery.entry.2.redeliveryCount⟩]
        progress := batch.progress + 1
        remainingDispatches := lessOne batch.remainingDispatches }
    | (false, unsent, slots) => .stop { batch with
        dispatcher := batch.dispatcher.modify fun dispatcher =>
          (((dispatcher.subtractTotalPermits batchCount).restoreRedeliveryMessage
            (redelivery.stored.messageId, ⟨redelivery.entry.2.redeliveryCount + 1,
              some stickyKeyHash⟩)).putConsumer redelivery.consumerId
                (unsent.addPermits batchCount)).addTotalPermits batchCount
        slots := slots
        remainingDispatches := lessOne batch.remainingDispatches }

def dispatchRedelivery (batch : Batch) : Round :=
  match popDispatchableRedeliveryMessage context batch.dispatcher with
  | (none, dispatcher) => .next { batch with dispatcher := dispatcher }
  | (some redelivery, dispatcher) =>
    redeliver context redelivery { batch with dispatcher := dispatcher }

/-- A message that was read. If its hash is blocked it is queued behind the others. -/
def dispatchCandidate (candidate : ReadCandidate) (batch : Batch) : Round :=
  let stickyKeyHash := stickyKeyHashFromMetadata context.decode candidate.metadata
  if batch.dispatcher.redeliveryController.isHashBlocked stickyKeyHash then
    .next { batch with
      dispatcher := batch.dispatcher.modify fun dispatcher =>
        (dispatcher.addRedeliveryEntries [(candidate.messageId,
          ⟨0, some stickyKeyHash⟩)]).commitReadPosition candidate.nextPosition
      progress := batch.progress + 1 }
  else
    match batch.dispatcher.selectConsumerForHash stickyKeyHash with
    | none => .stop batch
    | some (consumerId, consumer) =>
      let batchCount := messagesInBatch context.decode candidate.metadata
      match consumer.tryUsePermits batchCount with
      | none => .stop batch
      | some charged =>
        match charged.sendMessageWithStickyHash candidate.messageId 0 (some stickyKeyHash)
            batch.slots with
        | (true, sent, slots) => .next {
            dispatcher := batch.dispatcher.modify fun dispatcher =>
              ((dispatcher.subtractTotalPermits batchCount).commitReadPosition
                candidate.nextPosition).putConsumer consumerId sent
            slots := slots
            delivered := batch.delivered ++
              [⟨consumerId, candidate.messageId, candidate.metadata, 0⟩]
            progress := batch.progress + 1
            remainingDispatches := lessOne batch.remainingDispatches }
        | (false, unsent, slots) => .stop { batch with
            dispatcher := batch.dispatcher.modify fun dispatcher =>
              ((((dispatcher.subtractTotalPermits batchCount).restoreRedeliveryMessage
                (candidate.messageId, ⟨1, some stickyKeyHash⟩)).commitReadPosition
                  candidate.nextPosition).putConsumer consumerId
                    (unsent.addPermits batchCount)).addTotalPermits batchCount
            slots := slots
            remainingDispatches := lessOne batch.remainingDispatches }

def dispatchNew (batch : Batch) : Round :=
  match nextDispatchableMessage context.reader batch.dispatcher.isMessagePending context.fuel
      context.fuel batch.dispatcher.readPosition with
  | (.error failure, readPosition) => .fail failure { batch with
      dispatcher := { batch.dispatcher with readPosition := readPosition } }
  | (.ok none, readPosition) => .stop { batch with
      dispatcher := { batch.dispatcher with readPosition := readPosition } }
  | (.ok (some candidate), readPosition) => dispatchCandidate context candidate { batch with
      dispatcher := { batch.dispatcher with readPosition := readPosition } }

def dispatchRound (batch : Batch) : Round :=
  if batch.remainingDispatches = 0 then .stop batch
  else (dispatchRedelivery context batch).andThen (dispatchNew context)

variable (pass : Pass KeySharedDispatcher)

def dispatchMessagesBatch : Round :=
  let maxBatch := min pass.dispatcher.totalAvailablePermits dispatcherMaxRoundRobinBatchSize
  let batch := { pass with
    progress := 0
    remainingDispatches := maxBatch.toNat }
  if maxBatch ≤ 0 then .stop batch
  else .rounds (dispatchRound context) context.fuel batch

def nextBatch : Flow DispatchError (Pass KeySharedDispatcher) :=
  match dispatchMessagesBatch context pass with
  | .fail failure batch => .fail failure batch.toPass
  | .next batch | .stop batch =>
    if batch.progress = 0 then .stop batch.toPass
    else if batch.dispatcher.totalAvailablePermits ≤ 0 then .stop batch.toPass
    else .next batch.toPass

def dispatchMessages : Flow DispatchError (Pass KeySharedDispatcher) :=
  .rounds (nextBatch context) context.fuel pass

variable {context} {holds : Pass KeySharedDispatcher → Prop}

theorem next_batch_of_batch {pass}
    (batch : holds (dispatchMessagesBatch context pass).state.toPass) :
    holds (nextBatch context pass).state := by
  unfold nextBatch
  generalize dispatchMessagesBatch context pass = flow at batch
  cases flow with
  | fail failure batch => exact batch
  | next | stop =>
    dsimp only
    split_ifs <;> exact batch

variable (fresh : ∀ pass, holds pass → holds { pass with progress := 0 })
  (kept : ∀ batch : Batch, holds batch.toPass → holds (dispatchRound context batch).state.toPass)
include fresh kept

/-- What every round keeps, a batch keeps. -/
theorem next_batch_keeps_rounds (before : holds pass) : holds (nextBatch context pass).state := by
  apply next_batch_of_batch
  unfold dispatchMessagesBatch
  dsimp only
  split_ifs
  · exact fresh pass before
  · exact Flow.rounds_state (fun batch : Batch => holds batch.toPass) kept _ (fresh pass before)

theorem dispatch_messages_keeps_rounds (before : holds pass) :
    holds (dispatchMessages context pass).state :=
  Flow.rounds_state holds (fun pass => next_batch_keeps_rounds pass fresh kept) _ before

end KeySharedDispatcher

end PulsarLite.Broker
