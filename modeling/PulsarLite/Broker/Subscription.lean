import PulsarLite.Broker.KeySharedDispatcher
import PulsarLite.Broker.SharedDispatcher
import PulsarLite.Broker.SingleActive

/-!
# A persistent subscription

The store, the dispatcher and the requests that reach a subscription: publishes,
joining and leaving consumers, permits, acknowledgements, requests for redelivery,
seeks and dispatch passes. A request is handled to its end before the next one.
-/

namespace PulsarLite.Broker

open Library Storage ManagedLedgerStore

inductive SubscriptionType
  | exclusive
  | shared
  | failover
  | keyShared
deriving DecidableEq

inductive AckCommandType
  | individual
  | cumulative
deriving DecidableEq

inductive DispatcherEnum
  | exclusive (dispatcher : ExclusiveDispatcher)
  | shared (dispatcher : SharedDispatcher)
  | failover (dispatcher : FailoverDispatcher)
  | keyShared (dispatcher : KeySharedDispatcher)

namespace DispatcherEnum

def newWithKeySharedPolicy (subType : SubscriptionType) (keySharedPolicy : Option KeySharedPolicy) :
    DispatcherEnum :=
  match subType with
  | .exclusive => exclusive .new
  | .shared => shared .new
  | .failover => failover .new
  | .keyShared => keyShared (.new keySharedPolicy)

def getType : DispatcherEnum → SubscriptionType
  | exclusive _ => .exclusive
  | shared _ => .shared
  | failover _ => .failover
  | keyShared _ => .keyShared

def consumers : DispatcherEnum → OrderedMap Nat Consumer
  | exclusive dispatcher => dispatcher.consumers
  | shared dispatcher => dispatcher.consumers
  | failover dispatcher => dispatcher.consumers
  | keyShared dispatcher => dispatcher.consumers

def readPosition : DispatcherEnum → Option ManagedLedgerPosition
  | exclusive dispatcher => dispatcher.readPosition
  | shared dispatcher => dispatcher.readPosition
  | failover dispatcher => dispatcher.readPosition
  | keyShared dispatcher => dispatcher.readPosition

/-- A consumer changes its own state, which its dispatcher holds a reference to. -/
def putConsumer (consumerId : Nat) (consumer : Consumer) : DispatcherEnum → DispatcherEnum
  | exclusive dispatcher => exclusive ⟨dispatcher.toSingleActive.putConsumer consumerId consumer⟩
  | shared dispatcher => shared (dispatcher.modify (·.putConsumer consumerId consumer))
  | failover dispatcher => failover { dispatcher with
      toSingleActive := dispatcher.toSingleActive.putConsumer consumerId consumer }
  | keyShared dispatcher => keyShared (dispatcher.modify (·.putConsumer consumerId consumer))

def isConsumerConnected (dispatcher : DispatcherEnum) : Bool :=
  !dispatcher.consumers.bindings.isEmpty

def addConsumer (consumerId : Nat) (consumer : Consumer) : DispatcherEnum → Option DispatcherEnum
  | exclusive dispatcher => (dispatcher.addConsumer consumerId consumer).map exclusive
  | shared dispatcher => (dispatcher.addConsumer consumerId consumer).map shared
  | failover dispatcher => (dispatcher.addConsumer consumerId consumer).map failover
  | keyShared dispatcher => (dispatcher.addConsumer consumerId consumer).map keyShared

def initReadPosition (position : Option ManagedLedgerPosition) : DispatcherEnum → DispatcherEnum
  | exclusive dispatcher => exclusive
      ⟨{ dispatcher.toSingleActive with readPosition := position }⟩
  | shared dispatcher => shared { dispatcher with readPosition := position }
  | failover dispatcher => failover { dispatcher with readPosition := position }
  | keyShared dispatcher => keyShared { dispatcher with readPosition := position }

/-- Shared and KeyShared forget what is queued and in flight as well. -/
def resetAfterSeek (position : Option ManagedLedgerPosition) : DispatcherEnum → DispatcherEnum
  | shared dispatcher => shared { dispatcher with
      readPosition := position
      redeliveryController := dispatcher.redeliveryController.clear }
  | keyShared dispatcher => keyShared { dispatcher with
      readPosition := position
      redeliveryController := dispatcher.redeliveryController.clear }
  | exclusive dispatcher => (exclusive dispatcher).initReadPosition position
  | failover dispatcher => (failover dispatcher).initReadPosition position

def removeConsumerWithRecovery (reader : SubscriptionReader) (consumerId : Nat) :
    DispatcherEnum → DispatcherEnum
  | exclusive dispatcher => exclusive (dispatcher.removeConsumerWithRecovery consumerId)
  | shared dispatcher => shared (dispatcher.removeConsumerWithRecovery consumerId)
  | failover dispatcher => failover (dispatcher.removeConsumerWithRecovery reader consumerId)
  | keyShared dispatcher => keyShared (dispatcher.removeConsumerWithRecovery consumerId)

def redeliverMessages (entries : List RedeliveryEntry) : DispatcherEnum → DispatcherEnum
  | shared dispatcher => shared (dispatcher.modify (·.addRedeliveryEntries entries))
  | keyShared dispatcher => keyShared (dispatcher.modify (·.addRedeliveryEntries entries))
  | exclusive dispatcher => exclusive dispatcher
  | failover dispatcher => failover dispatcher

def consumerFlow (consumerId additionalPermits : Nat) : DispatcherEnum → DispatcherEnum
  | exclusive dispatcher => exclusive (dispatcher.consumerFlow consumerId additionalPermits)
  | shared dispatcher => shared (dispatcher.consumerFlow additionalPermits)
  | failover dispatcher => failover (dispatcher.consumerFlow consumerId additionalPermits)
  | keyShared dispatcher => keyShared (dispatcher.consumerFlow consumerId additionalPermits)

/-- A pass over the subscription: how it failed if it did, the dispatcher after it,
and all deliveries. -/
def dispatchMessages (context : DispatchContext) (slots : ChannelSlots)
    (delivered : List Delivery) :
    DispatcherEnum → Option DispatchError × DispatcherEnum × List Delivery
  | exclusive dispatcher =>
    let flow := SingleActive.dispatchMessages context dispatcher.consumer
      ⟨dispatcher.toSingleActive, slots, delivered, 0⟩
    (flow.failure, exclusive ⟨flow.state.dispatcher⟩, flow.state.delivered)
  | shared dispatcher =>
    let flow := SharedDispatcher.dispatchMessages context ⟨dispatcher, slots, delivered, 0⟩
    (flow.failure, shared flow.state.dispatcher, flow.state.delivered)
  | failover dispatcher =>
    let flow := SingleActive.dispatchMessages context dispatcher.activeConsumerId
      ⟨dispatcher.toSingleActive, slots, delivered, 0⟩
    (flow.failure, failover { dispatcher with toSingleActive := flow.state.dispatcher },
      flow.state.delivered)
  | keyShared dispatcher =>
    let flow := KeySharedDispatcher.dispatchMessages context ⟨dispatcher, slots, delivered, 0⟩
    (flow.failure, keyShared flow.state.dispatcher, flow.state.delivered)

def onMessageAcknowledged (messageId : MessageId) : DispatcherEnum → DispatcherEnum
  | shared dispatcher => shared (dispatcher.modify (·.onMessageAcknowledged messageId))
  | keyShared dispatcher => keyShared (dispatcher.modify (·.onMessageAcknowledged messageId))
  | exclusive dispatcher => exclusive dispatcher
  | failover dispatcher => failover dispatcher

def onAckStateUpdated (reader : SubscriptionReader) :
    DispatcherEnum → Except DispatchError Unit × DispatcherEnum
  | shared dispatcher =>
    let updated := dispatcher.toMultipleConsumers.onAckStateUpdated reader
    (updated.1, shared (dispatcher.modify fun _ => updated.2))
  | keyShared dispatcher =>
    let updated := dispatcher.toMultipleConsumers.onAckStateUpdated reader
    (updated.1, keyShared (dispatcher.modify fun _ => updated.2))
  | exclusive dispatcher => (.ok (), exclusive dispatcher)
  | failover dispatcher => (.ok (), failover dispatcher)

/-- The consumers in the order in which they are walked. Shared and Failover have
an order of their own; the walk through the hash map of KeyShared is any. -/
def getConsumers (walk : List Nat) : DispatcherEnum → List Nat
  | exclusive dispatcher => dispatcher.consumers.keys
  | shared dispatcher => dispatcher.consumerOrder
  | failover dispatcher => dispatcher.consumerOrder
  | keyShared _ => walk

end DispatcherEnum

structure SubscriptionSite where
  topic : Text
  name : Text
  decode : Decode
  fuel : Nat

/-- `Subscription` with its `PersistentSubscriptionRuntime`, the store, and the
messages that went into the channels of consumers. -/
structure Subscription where
  subType : SubscriptionType
  keySharedPolicy : Option KeySharedPolicy
  dispatcher : Option DispatcherEnum
  pendingFirstUnacked : Option (Option ManagedLedgerPosition)
  store : ManagedLedgerStore
  delivered : List Delivery

inductive RequestError
  | storage (message : String)
  | dispatch (failure : DispatchError)
  | unknownConsumer (consumerId : Nat)
deriving DecidableEq

namespace Subscription

variable (site : SubscriptionSite)

def reader (subscription : Subscription) : SubscriptionReader :=
  subscription.store.reader site.topic site.name

variable (subscription : Subscription)

def context : DispatchContext where
  reader := subscription.reader site
  decode := site.decode
  fuel := site.fuel

/-- A subscription is created: its cursor is opened, and the first unacknowledged
position kept for the first consumer. -/
def create (subType : SubscriptionType) (keySharedPolicy : Option KeySharedPolicy)
    (cursorOptions : CursorInitOptions) (store : ManagedLedgerStore) : Except String Subscription :=
  match store.initializeOrOpenCursor site.topic site.name cursorOptions with
  | (.error message, _) => .error message
  | (.ok opened, store) => .ok {
      subType := subType
      keySharedPolicy := keySharedPolicy
      dispatcher := none
      pendingFirstUnacked := some opened.firstUnacked
      store := store
      delivered := [] }

/-- A dispatcher of another type is replaced if nobody is connected to it. -/
def reuseOrCreateDispatcher : DispatcherEnum :=
  let fresh := .newWithKeySharedPolicy subscription.subType
    subscription.keySharedPolicy
  match subscription.dispatcher with
  | none => fresh
  | some dispatcher =>
    if !dispatcher.isConsumerConnected && decide (dispatcher.getType ≠ subscription.subType) then
      fresh
    else dispatcher

/-- The dispatcher that a consumer is about to join. -/
def dispatcherToJoin : DispatcherEnum :=
  match subscription.pendingFirstUnacked with
  | some position => subscription.reuseOrCreateDispatcher.initReadPosition position
  | none => subscription.reuseOrCreateDispatcher

/-- The dispatcher is created and the kept position used up even if the consumer is
turned away. -/
def addConsumer (consumerId : Nat) (consumer : Consumer) (subscription : Subscription) :
    Subscription :=
  let dispatcher := subscription.dispatcherToJoin
  { subscription with
    dispatcher := some ((dispatcher.addConsumer consumerId consumer).getD dispatcher)
    pendingFirstUnacked := none }

def dispatchMessages (slots : ChannelSlots) (subscription : Subscription) : Subscription :=
  match subscription.dispatcher with
  | none => subscription
  | some dispatcher =>
    let passed := dispatcher.dispatchMessages (subscription.context site) slots
      subscription.delivered
    { subscription with
      dispatcher := some passed.2.1
      delivered := passed.2.2 }

/-- The dispatcher of a subscription that nobody is connected to stays only if
messages may be queued in it. -/
def removeConsumerWithRecovery (consumerId : Nat) (slots : ChannelSlots)
    (subscription : Subscription) : Subscription :=
  match subscription.dispatcher with
  | none => subscription
  | some dispatcher =>
    let removed := { subscription with
      dispatcher := some
        (dispatcher.removeConsumerWithRecovery (subscription.reader site) consumerId) }
    let passed := dispatchMessages site slots removed
    { passed with
      dispatcher := passed.dispatcher.filter fun dispatcher =>
        dispatcher.isConsumerConnected || decide (dispatcher.getType = .shared ∨
          dispatcher.getType = .keyShared) }

/-- `handle_flow`: the consumer and the aggregate. -/
def flow (consumerId permits : Nat) (subscription : Subscription) : Subscription :=
  match subscription.dispatcher with
  | none => subscription
  | some dispatcher =>
    match dispatcher.consumers.find consumerId with
    | none => subscription
    | some consumer => { subscription with
        dispatcher := some ((dispatcher.putConsumer consumerId
          (consumer.addPermits permits)).consumerFlow consumerId permits) }

variable (consumerId : Nat)

/-- The connection of a consumer becomes writable, or stops being so. -/
def setWritable (isWritable : Bool) (subscription : Subscription) : Subscription :=
  match subscription.dispatcher with
  | none => subscription
  | some dispatcher =>
    match dispatcher.consumers.find consumerId with
    | none => subscription
    | some consumer => { subscription with
        dispatcher := some (dispatcher.putConsumer consumerId
          { consumer with isWritable := isWritable }) }

/-- The tracked id under which a consumer holds a message, by the id or by its
ledger and entry. -/
def heldAs (consumer : Consumer) (messageId : MessageId) : Option MessageId :=
  if consumer.hasPendingAck messageId then some messageId
  else consumer.findPendingAckByPosition messageId.ledger messageId.entry

def resolveAckOwner (consumers : OrderedMap Nat Consumer) (walk : List Nat) (consumerId : Nat)
    (messageId : MessageId) : Option (Nat × MessageId) :=
  let heldBy := fun owner => ((consumers.find owner).bind fun consumer =>
    heldAs consumer messageId).map fun tracked => (owner, tracked)
  (heldBy consumerId).or ((walk.filter fun owner => decide (owner ≠ consumerId)).findSome? heldBy)

/-- The loop of `message_acked` for Shared and KeyShared: each message is taken
from the consumer that holds it. -/
def takeAcked (walk : List Nat) (consumerId : Nat) :
    List MessageId → DispatcherEnum → List MessageId × DispatcherEnum
  | [], dispatcher => ([], dispatcher)
  | messageId :: rest, dispatcher =>
    match resolveAckOwner dispatcher.consumers (dispatcher.getConsumers walk) consumerId
        messageId with
    | none => takeAcked walk consumerId rest dispatcher
    | some (owner, tracked) =>
      match dispatcher.consumers.find owner with
      | none => takeAcked walk consumerId rest dispatcher
      | some consumer =>
        let taken := takeAcked walk consumerId rest
          (dispatcher.putConsumer owner (consumer.removePendingAck tracked))
        (tracked :: taken.1, taken.2)

/-- The loop of `message_acked` for Exclusive and Failover: only messages of the
consumer itself, if they are acknowledged one by one. -/
def takeOwnAcked (consumerId : Nat) :
    List MessageId → DispatcherEnum → List MessageId × DispatcherEnum
  | [], dispatcher => ([], dispatcher)
  | messageId :: rest, dispatcher =>
    match (dispatcher.consumers.find consumerId).filter (·.hasPendingAck messageId) with
    | none => takeOwnAcked consumerId rest dispatcher
    | some consumer =>
      let taken := takeOwnAcked consumerId rest
        (dispatcher.putConsumer consumerId (consumer.removePendingAck messageId))
      (messageId :: taken.1, taken.2)

def ackEach (ack : MessageId → ManagedLedgerStore → Except String Unit × ManagedLedgerStore) :
    List MessageId → ManagedLedgerStore → Except String Unit × ManagedLedgerStore
  | [], store => (.ok (), store)
  | messageId :: rest, store =>
    match ack messageId store with
    | (.error message, store) => (.error message, store)
    | (.ok _, store) => ackEach ack rest store

/-- `acknowledge_message` for Shared and KeyShared. -/
def acknowledgeShared (messageIds : List MessageId) (subscription : Subscription) :
    Except RequestError Unit × Subscription :=
  match ackEach (fun messageId => ackMessageShared site.topic site.name
      messageId) messageIds subscription.store with
  | (.error message, store) => (.error (.storage message), { subscription with store := store })
  | (.ok _, store) =>
    let acked := { subscription with store := store }
    match subscription.dispatcher with
    | none => (.ok (), acked)
    | some dispatcher =>
      let updated := (messageIds.foldl (fun dispatcher messageId =>
        dispatcher.onMessageAcknowledged messageId) dispatcher).onAckStateUpdated
          (acked.reader site)
      (updated.1.mapError .dispatch, { acked with dispatcher := some updated.2 })

variable (ackType : AckCommandType) (messageIds : List MessageId)

/-- `acknowledge_message` for Exclusive and Failover, whose dispatchers are not
concerned. Of a cumulative request the last id counts. -/
def acknowledgeSingle (subscription : Subscription) : Except RequestError Unit × Subscription :=
  let acked :=
    match ackType with
    | .individual => ackEach (fun messageId => ackMessageShared site.topic
        site.name messageId) messageIds subscription.store
    | .cumulative => ackEach (fun messageId => ackMessage site.topic
        site.name messageId) messageIds.getLast?.toList subscription.store
  (acked.1.mapError .storage, { subscription with store := acked.2 })

def messageAcked
    (walk : List Nat) (subscription : Subscription) : Except RequestError Unit × Subscription :=
  match subscription.dispatcher with
  | none => (.error (.unknownConsumer consumerId), subscription)
  | some dispatcher =>
    if consumerId ∉ dispatcher.consumers then
      (.error (.unknownConsumer consumerId), subscription)
    else
      match subscription.subType with
      | .shared | .keyShared =>
        if ackType = .cumulative then (.ok (), subscription)
        else
          let taken := takeAcked walk consumerId messageIds dispatcher
          let taking := { subscription with dispatcher := some taken.2 }
          if taken.1.isEmpty then (.ok (), taking)
          else acknowledgeShared site taken.1 taking
      | .exclusive | .failover =>
        let taken :=
          match ackType with
          | .individual => takeOwnAcked consumerId messageIds dispatcher
          | .cumulative => (messageIds, dispatcher)
        let taking := { subscription with dispatcher := some taken.2 }
        if taken.1.isEmpty then (.ok (), taking)
        else acknowledgeSingle site ackType taken.1 taking

def redeliveryOf (pending : MessageId × PendingAck) : RedeliveryEntry :=
  (pending.1, { pending.2 with redeliveryCount := pending.2.redeliveryCount + 1 })

def takePendingAcks : List MessageId → Consumer → List RedeliveryEntry × Consumer
  | [], consumer => ([], consumer)
  | messageId :: rest, consumer =>
    match consumer.pendingAcks.find messageId with
    | none => takePendingAcks rest consumer
    | some pending =>
      let taken := takePendingAcks rest (consumer.removePendingAck messageId)
      (redeliveryOf (messageId, pending) :: taken.1, taken.2)

/-- An empty request stands for everything that is pending. -/
def takeForRedelivery (consumer : Consumer) : List RedeliveryEntry × Consumer :=
  if messageIds.isEmpty then
    let drained := consumer.drainPendingAcks
    (drained.1.map redeliveryOf, drained.2)
  else takePendingAcks messageIds consumer

def redeliverUnacknowledgedMessages (slots : ChannelSlots) (subscription : Subscription) :
    Except RequestError Unit × Subscription :=
  match subscription.subType with
  | .exclusive | .failover => (.ok (), subscription)
  | .shared | .keyShared =>
    match subscription.dispatcher with
    | none => (.error (.unknownConsumer consumerId), subscription)
    | some dispatcher =>
      match dispatcher.consumers.find consumerId with
      | none => (.error (.unknownConsumer consumerId), subscription)
      | some consumer =>
        let taken := takeForRedelivery messageIds consumer
        let dispatcher := dispatcher.putConsumer consumerId taken.2
        let dispatchable := taken.1.filter fun entry =>
          !(subscription.reader site).isAcknowledged entry.1
        if dispatchable.isEmpty then
          (.ok (), { subscription with dispatcher := some dispatcher })
        else
          (.ok (), dispatchMessages site slots { subscription with
            dispatcher := some (dispatcher.redeliverMessages dispatchable) })

def drainConsumer (dispatcher : DispatcherEnum) (consumerId : Nat) : DispatcherEnum :=
  match dispatcher.consumers.find consumerId with
  | none => dispatcher
  | some consumer => dispatcher.putConsumer consumerId consumer.drainPendingAcks.2

/-- `handle_seek` to a message, without passes between its two steps: the dispatcher starts
over from the first unacknowledged position, and nothing stays pending. -/
def seek (messageId : MessageId) (subscription : Subscription) :
    Except RequestError Unit × Subscription :=
  match subscription.dispatcher with
  | none => (.error (.unknownConsumer consumerId), subscription)
  | some dispatcher =>
    if consumerId ∉ dispatcher.consumers then
      (.error (.unknownConsumer consumerId), subscription)
    else
      let sought := subscription.store.seekCursor site.topic site.name messageId
        (decide (subscription.subType = .shared ∨ subscription.subType = .keyShared))
      let moved := { subscription with store := sought.2 }
      match sought.1, (moved.reader site).firstUnackedPosition with
      | .error message, _ => (.error (.storage message), moved)
      | .ok _, .error failure => (.error (.dispatch failure), moved)
      | .ok _, .ok firstUnacked => (.ok (), { moved with
          dispatcher := some (dispatcher.consumers.keys.foldl drainConsumer
            (dispatcher.resetAfterSeek firstUnacked)) })

/-- What can happen to a subscription; the slots are those of the passes that a
request makes. -/
inductive Request
  | publish (items : List Item)
  | addConsumer (consumerId : Nat) (consumerName : Text) (priorityLevel : Int)
      (keySharedPolicy : Option KeySharedPolicy)
  | flow (consumerId permits : Nat)
  | dispatch (slots : ChannelSlots)
  | ack (consumerId : Nat) (ackType : AckCommandType) (messageIds : List MessageId)
      (walk : List Nat)
  | redeliver (consumerId : Nat) (messageIds : List MessageId) (slots : ChannelSlots)
  | removeConsumer (consumerId : Nat) (slots : ChannelSlots)
  | setWritable (consumerId : Nat) (isWritable : Bool)
  | seek (consumerId : Nat) (messageId : MessageId)

def handle : Request → Subscription
  | .publish items => { subscription with
      store := subscription.store.appendMessages site.topic items }
  | .addConsumer consumerId consumerName priorityLevel keySharedPolicy =>
    subscription.addConsumer consumerId (Consumer.new consumerName priorityLevel keySharedPolicy)
  | .flow consumerId permits => subscription.flow consumerId permits
  | .dispatch slots => subscription.dispatchMessages site slots
  | .ack consumerId ackType messageIds walk =>
    (subscription.messageAcked site consumerId ackType messageIds walk).2
  | .redeliver consumerId messageIds slots =>
    (subscription.redeliverUnacknowledgedMessages site consumerId messageIds slots).2
  | .removeConsumer consumerId slots =>
    subscription.removeConsumerWithRecovery site consumerId slots
  | .setWritable consumerId isWritable => subscription.setWritable consumerId isWritable
  | .seek consumerId messageId => (subscription.seek site consumerId messageId).2

end Subscription

end PulsarLite.Broker
