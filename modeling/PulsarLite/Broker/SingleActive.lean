import PulsarLite.Broker.MultipleConsumers

/-!
# The dispatchers with one active consumer

Exclusive has one consumer; Failover has many, and hands everything to the one
that comes first by priority, name and id. Both drain the topic in the same way,
one permit a message.
-/

namespace PulsarLite.Broker

open Library Storage

/-- What both have: the consumers by id, the permits of the active one as a `u32`,
and the read position. -/
structure SingleActive where
  consumers : OrderedMap Nat Consumer
  totalAvailablePermits : Nat
  readPosition : Option ManagedLedgerPosition

namespace SingleActive

abbrev Round := Flow DispatchError (Pass SingleActive)

variable (dispatcher : SingleActive) (consumerId : Nat) (consumer : Consumer)

def putConsumer : SingleActive :=
  { dispatcher with consumers := dispatcher.consumers.insert consumerId consumer }

/-- `fetch_add` on the aggregate, which wraps. -/
def addTotalPermits (permits : Nat) : SingleActive :=
  { dispatcher with
    totalAvailablePermits := (dispatcher.totalAvailablePermits + permits) % 2 ^ 32 }

def chargeOne : SingleActive :=
  dispatcher.addTotalPermits (2 ^ 32 - 1)

def refund : SingleActive :=
  (dispatcher.putConsumer consumerId (consumer.addPermits 1)).addTotalPermits 1

def dispatchRound (context : DispatchContext) (consumerId : Nat) (pass : Pass SingleActive) :
    Round :=
  match (pass.dispatcher.consumers.find consumerId).bind Consumer.usePermit with
  | none => .stop pass
  | some consumer =>
    let dispatcher := pass.dispatcher.chargeOne
    match nextUnackedCandidate context.reader context.fuel dispatcher.readPosition with
    | (.error failure, readPosition) => .fail failure { pass with
        dispatcher := { dispatcher.putConsumer consumerId consumer with
          readPosition := readPosition } }
    | (.ok none, readPosition) => .stop { pass with
        dispatcher := { dispatcher.refund consumerId consumer with
          readPosition := readPosition } }
    | (.ok (some candidate), readPosition) =>
      match consumer.enqueueMessage candidate.messageId pass.slots with
      | (true, sent, slots) => .next {
          dispatcher := { dispatcher.putConsumer consumerId sent with
            readPosition := some candidate.nextPosition }
          slots := slots
          delivered := pass.delivered ++
            [⟨consumerId, candidate.messageId, candidate.metadata, 0⟩]
          progress := pass.progress + 1 }
      | (false, unsent, slots) => .stop { pass with
          dispatcher := { dispatcher.refund consumerId unsent with
            readPosition := readPosition }
          slots := slots }

variable (context : DispatchContext) (active : Option Nat) (pass : Pass SingleActive)

/-- A batch for the active consumer, and whether another one follows. -/
def nextBatch : Round :=
  match active with
  | none => .stop pass
  | some consumerId =>
    let availablePermits := pass.dispatcher.totalAvailablePermits
    if availablePermits = 0 then .stop pass
    else
      match Flow.rounds (dispatchRound context consumerId)
          (min availablePermits dispatcherMaxRoundRobinBatchSize)
          { pass with progress := 0 } with
      | .fail failure pass => .fail failure pass
      | .next pass | .stop pass =>
        if pass.progress = 0 then .stop pass
        else if pass.dispatcher.totalAvailablePermits = 0 then .stop pass
        else .next pass

def dispatchMessages : Round :=
  .rounds (nextBatch context active) context.fuel pass

end SingleActive

structure ExclusiveDispatcher extends SingleActive

namespace ExclusiveDispatcher

def new : ExclusiveDispatcher where
  consumers := .empty
  totalAvailablePermits := 0
  readPosition := none

variable (dispatcher : ExclusiveDispatcher)

def consumer : Option Nat := dispatcher.consumers.keys.head?

variable (consumerId : Nat)

def addConsumer (consumer : Consumer) : Option ExclusiveDispatcher :=
  if dispatcher.consumer.isSome then none
  else some ⟨dispatcher.toSingleActive.putConsumer consumerId consumer⟩

/-- The permits and the pending acks are not looked at. -/
def removeConsumerWithRecovery : ExclusiveDispatcher :=
  ⟨{ dispatcher.toSingleActive with consumers := dispatcher.consumers.erase consumerId }⟩

def consumerFlow (consumerId additionalPermits : Nat) : ExclusiveDispatcher :=
  if dispatcher.consumer = some consumerId then
    ⟨dispatcher.toSingleActive.addTotalPermits additionalPermits⟩
  else dispatcher

end ExclusiveDispatcher

structure FailoverDispatcher extends SingleActive where
  consumerOrder : List Nat
  activeConsumerId : Option Nat

namespace FailoverDispatcher

def new : FailoverDispatcher where
  consumers := .empty
  totalAvailablePermits := 0
  readPosition := none
  consumerOrder := []
  activeConsumerId := none

variable (dispatcher : FailoverDispatcher)

def getActiveConsumer : Option Consumer :=
  dispatcher.activeConsumerId.bind dispatcher.consumers.find

/-- The texts are compared by their characters, which for UTF-8 is by their bytes. -/
def comesFirst (consumers : OrderedMap Nat Consumer) (left right : Nat) : Bool :=
  match consumers.find left, consumers.find right with
  | some first, some second =>
    decide (second.priorityLevel < first.priorityLevel ∨
      second.priorityLevel = first.priorityLevel ∧
        (first.consumerName < second.consumerName ∨
          first.consumerName = second.consumerName ∧ left ≤ right))
  | _, _ => true

def sortConsumers : FailoverDispatcher :=
  { dispatcher with
    consumerOrder := dispatcher.consumerOrder.mergeSort (comesFirst dispatcher.consumers) }

def selectActiveConsumerId : Option Nat :=
  dispatcher.consumerOrder.head?

def syncTotalAvailablePermits : FailoverDispatcher :=
  { dispatcher with
    totalAvailablePermits :=
      (dispatcher.getActiveConsumer.map Consumer.availablePermitsNow).getD 0 }

/-- The consumers are told; what they keep of it is used for statistics only. -/
def pickAndScheduleActiveConsumer : FailoverDispatcher :=
  syncTotalAvailablePermits
    { dispatcher with activeConsumerId := dispatcher.selectActiveConsumerId }

variable (consumerId : Nat)

def addConsumer (consumer : Consumer) : Option FailoverDispatcher :=
  if consumerId ∈ dispatcher.consumers then none
  else
    let joined := { dispatcher with
      consumers := dispatcher.consumers.insert consumerId consumer
      consumerOrder := dispatcher.consumerOrder ++ [consumerId] }
    some joined.sortConsumers.pickAndScheduleActiveConsumer

def removeConsumer : FailoverDispatcher :=
  if consumerId ∈ dispatcher.consumers then
    let left := sortConsumers { dispatcher with
      consumers := dispatcher.consumers.erase consumerId
      consumerOrder := dispatcher.consumerOrder.erase consumerId }
    if left.consumerOrder.isEmpty then
      { left with
        activeConsumerId := none
        totalAvailablePermits := 0 }
    else left.pickAndScheduleActiveConsumer
  else dispatcher

def consumerFlow (consumerId additionalPermits : Nat) : FailoverDispatcher :=
  if dispatcher.activeConsumerId = some consumerId then
    { dispatcher with
      toSingleActive := dispatcher.toSingleActive.addTotalPermits additionalPermits }
  else dispatcher

variable (reader : SubscriptionReader)

/-- `rewind_read_position`: the least of the first unacknowledged position and the
pending ones. -/
def rewindReadPosition
    (pendingPositions : List ManagedLedgerPosition) : Option ManagedLedgerPosition :=
  let firstUnacked := reader.firstUnackedPosition.toOption.join
  match firstUnacked, pendingPositions.min? with
  | some unacked, some pending => some (min unacked pending)
  | some unacked, none => some unacked
  | none, some pending => some pending
  | none, none => none

/-- The active consumer is picked once more after `remove_consumer` has done it. -/
def leave : FailoverDispatcher :=
  let left := dispatcher.removeConsumer consumerId
  if consumerId ∈ dispatcher.consumers then left.sortConsumers.pickAndScheduleActiveConsumer
  else left

/-- Only the active consumer gives its messages back, by rewinding the read position. -/
def removeConsumerWithRecovery (dispatcher : FailoverDispatcher)
    (consumerId : Nat) : FailoverDispatcher :=
  if dispatcher.activeConsumerId = some consumerId then
    let pendingPositions :=
      match dispatcher.consumers.find consumerId with
      | some consumer =>
        consumer.closePendingAcks.drainPendingAcks.1.map fun pending => pending.1.toPosition
      | none => []
    leave { dispatcher with
      readPosition := rewindReadPosition reader pendingPositions } consumerId
  else dispatcher.leave consumerId

end FailoverDispatcher

end PulsarLite.Broker
