import PulsarLite.Broker.BrokerService
import PulsarLite.Library.Runs

/-!
# Connections

Any number of connections to one broker. `run` takes frames, completed appends,
messages to be written, ticks and deadlines one at a time. When its loop is left it
cleans up what the connection has registered, one producer or consumer after another,
and other connections go on meanwhile. A frame that cannot be read, or whose command
cannot be decoded, makes it return at once.

What reading, writing and the store do is told by the events: the text of a failure,
or nothing.
-/

namespace PulsarLite.Broker

open Library Storage

inductive ConnectionState
  | start
  | connecting
  | connected
  | failed
  | closing
  | closed
deriving DecidableEq

inductive CloseReason
  | clientClosed
  | handshakeTimeout
  | keepAliveTimeout
  | livenessCheckTimeout
  | keepAliveSendFailed
  | protocolError (message : String)
deriving DecidableEq

inductive CloseReasonKind
  | keepAliveTimeout
  | livenessCheckTimeout
deriving DecidableEq

inductive RunPhase
  | running
  | cleaning
  | returned
deriving DecidableEq

/-- The producers and consumers of a connection by number, with the topic or the
subscription they refer to. -/
structure ServerCnx where
  state : ConnectionState
  handshakeCompleted : Bool
  remoteProtocolVersion : Int
  waitingForPong : Bool
  connectionCheckInProgress : Option CloseReasonKind
  closeReason : Option CloseReason
  producers : OrderedMap Nat TopicKey
  consumers : OrderedMap Nat Nat
  phase : RunPhase

namespace ServerCnx

def new : ServerCnx where
  state := .start
  handshakeCompleted := false
  remoteProtocolVersion := 0
  waitingForPong := false
  connectionCheckInProgress := none
  closeReason := none
  producers := .empty
  consumers := .empty
  phase := .running

def modifyProducers (change : OrderedMap Nat TopicKey → OrderedMap Nat TopicKey)
    (cnx : ServerCnx) : ServerCnx :=
  { cnx with producers := change cnx.producers }

def modifyConsumers (change : OrderedMap Nat Nat → OrderedMap Nat Nat) (cnx : ServerCnx) :
    ServerCnx :=
  { cnx with consumers := change cnx.consumers }

variable (cnx : ServerCnx)

def supportsKeepAlive : Bool := decide (1 ≤ cnx.remoteProtocolVersion)

def markInboundActivity : ServerCnx :=
  { cnx with
    waitingForPong := false
    connectionCheckInProgress := none }

def setFailed (reason : CloseReason) (cnx : ServerCnx) : ServerCnx :=
  { cnx with
    state := .failed
    closeReason := some reason }

def leaveLoop : ServerCnx :=
  { cnx with
    state := if cnx.state = .failed then .failed else .closing
    phase := .cleaning }

def breakWith (message : String) (cnx : ServerCnx) : ServerCnx :=
  (cnx.setFailed (.protocolError message)).leaveLoop

def afterResult (result : Except String Unit) (cnx : ServerCnx) : ServerCnx :=
  match result with
  | .ok _ => cnx
  | .error message => cnx.breakWith message

def handleConnectionCheckTimeout : ServerCnx :=
  match cnx.connectionCheckInProgress with
  | none => cnx
  | some .keepAliveTimeout => (cnx.setFailed .keepAliveTimeout).leaveLoop
  | some .livenessCheckTimeout => (cnx.setFailed .livenessCheckTimeout).leaveLoop

/-- A ping is written, and the answer waited for. -/
def startConnectionLivenessCheck (timeoutReason : CloseReasonKind) (written : Except String Unit)
    (cnx : ServerCnx) : ServerCnx :=
  match written with
  | .error message => (cnx.setFailed .keepAliveSendFailed).breakWith message
  | .ok _ => { cnx with
      waitingForPong := true
      connectionCheckInProgress := some timeoutReason }

def handleKeepAliveTick (handshakeTimedOut : Bool) (written : Except String Unit)
    (cnx : ServerCnx) : ServerCnx :=
  match cnx.state with
  | .start | .connecting =>
    if !cnx.handshakeCompleted && handshakeTimedOut then
      (cnx.setFailed .handshakeTimeout).leaveLoop
    else cnx
  | .connected =>
    if !cnx.supportsKeepAlive then cnx
    else if cnx.waitingForPong then
      { cnx with
        connectionCheckInProgress :=
          cnx.connectionCheckInProgress.or (some .keepAliveTimeout) }
    else cnx.startConnectionLivenessCheck .keepAliveTimeout written
  | .failed | .closing | .closed => cnx.leaveLoop

end ServerCnx

structure CommandSubscribe where
  topic : Text
  subscription : Text
  subType : Int
  consumerId : Nat
  keySharedPolicy : Option KeySharedPolicy

def subscriptionTypeOf (subType : Int) : SubscriptionType :=
  if subType = 1 then .shared
  else if subType = 2 then .failover
  else if subType = 3 then .keyShared
  else .exclusive

/-- `other` are the commands that register nothing, and those without a body. -/
inductive Command
  | connect (protocolVersion : Int)
  | producer (topic : Text) (producerId : Nat)
  | closeProducer (producerId : Nat)
  | subscribe (request : CommandSubscribe) (cursorOpened : Except String Unit)
  | closeConsumer (consumerId : Nat)
  | unsubscribe (consumerId : Nat) (cursorDeleted : Except String Unit)
  | ping
  | pong
  | other

def Command.allowedBeforeHandshake : Command → Bool
  | connect _ | ping | pong => true
  | _ => false

@[ext] structure Registry where
  broker : BrokerService
  subscriptions : List SubscriptionRecord
  connections : Nat → ServerCnx

namespace Registry

abbrev Outcome := Except String Unit × Registry

def start (partitionMetadata : Text → Option Nat) (defaultPartitions : Nat) : Registry where
  broker := .withConfig partitionMetadata defaultPartitions
  subscriptions := []
  connections := fun _ => .new

variable (connection : Nat)

def modifyCnx (change : ServerCnx → ServerCnx) (registry : Registry) : Registry :=
  { registry with
    connections :=
      Function.update registry.connections connection (change (registry.connections connection)) }

/-- `handle_producer` up to its reply. -/
def registerProducer (topic : Text) (producerId : Nat) (registry : Registry) : Outcome :=
  if producerId ∈ (registry.connections connection).producers then
    (.error ("Producer " ++ toString producerId ++ " already exists on this connection"), registry)
  else
    match registry.broker.getOrCreateTopicAuto topic with
    | (.partitioned, broker) =>
      (.error ("Producer command must target a concrete topic or partition: " ++
        .ofList topic), { registry with broker := broker })
    | (.concrete key, broker) =>
      (.ok (), modifyCnx connection (.modifyProducers (·.insert producerId key))
        { registry with
          broker := broker.modifyTopic key (.addProducer producerId connection) })

/-- The topic forgets whoever has the number. -/
def removeProducer (connection producerId : Nat) (registry : Registry) : Registry :=
  match (registry.connections connection).producers.find producerId with
  | none => registry
  | some key =>
    modifyCnx connection (.modifyProducers (·.erase producerId))
      { registry with broker := registry.broker.modifyTopic key (.removeProducer producerId) }

/-- `get_or_create_subscription_with_options`: the cursor of a new one is opened first,
unless the topic keeps nothing. -/
def getOrCreateSubscription (key : TopicKey) (request : CommandSubscribe)
    (cursorOpened : Except String Unit) (registry : Registry) : Except String Nat × Registry :=
  match (registry.broker.topicAt key).subscriptions request.subscription with
  | some handle => (.ok handle, registry)
  | none =>
    let created := { registry with
      broker := registry.broker.modifyTopic key fun topic => { topic with
        subscriptions := Function.update topic.subscriptions request.subscription
          (some registry.subscriptions.length) }
      subscriptions := registry.subscriptions ++ [.new key.name
        request.subscription (subscriptionTypeOf request.subType) request.keySharedPolicy] }
    match runtimeModeFromTopicName key.name, cursorOpened with
    | .persistent, .error message => (.error message, registry)
    | _, _ => (.ok registry.subscriptions.length, created)

/-- The consumer is listed by the subscription and by the connection, where one with
the same number is overwritten. -/
def join (connection handle : Nat) (request : CommandSubscribe) (registry : Registry) : Outcome :=
  match registry.subscriptions[handle]? with
  | none => (.error "no subscription has this handle", registry)
  | some record =>
    match record.addConsumer request.consumerId connection request.keySharedPolicy with
    | .error message => (.error message, registry)
    | .ok joined =>
      (.ok (), modifyCnx connection
        (.modifyConsumers (·.insert request.consumerId handle))
        { registry with subscriptions := registry.subscriptions.set handle joined })

/-- `handle_subscribe` up to its reply. -/
def registerConsumer (request : CommandSubscribe)
    (cursorOpened : Except String Unit) (registry : Registry) : Outcome :=
  match registry.broker.getOrCreateTopicAuto request.topic with
  | (.partitioned, broker) =>
    (.error ("Subscribe command must target a concrete topic or partition: " ++
      .ofList request.topic), { registry with broker := broker })
  | (.concrete key, broker) =>
    match getOrCreateSubscription key request cursorOpened { registry with broker := broker } with
    | (.error message, registry) => (.error message, registry)
    | (.ok handle, registry) => join connection handle request registry

def removeConsumer (connection consumerId : Nat) (registry : Registry) : Registry :=
  match (registry.connections connection).consumers.find consumerId with
  | none => registry
  | some handle =>
    modifyCnx connection (.modifyConsumers (·.erase consumerId))
      { registry with
        subscriptions :=
          registry.subscriptions.modify handle (.removeConsumer consumerId) }

/-- The topic forgets the subscription of a name, whichever it is. -/
def forgetSubscription (record : SubscriptionRecord) (registry : Registry) : Registry :=
  match registry.broker.getTopic record.topic with
  | none => registry
  | some key => { registry with
      broker := registry.broker.modifyTopic key (.removeSubscription record.name) }

/-- `handle_unsubscribe` up to its reply: other consumers of the subscription stay in it. -/
def unsubscribe (connection consumerId : Nat) (cursorDeleted : Except String Unit)
    (registry : Registry) : Outcome :=
  match ((registry.connections connection).consumers.find consumerId).bind fun handle =>
      registry.subscriptions[handle]? with
  | none => (.ok (), registry)
  | some record =>
    let removed := registry.removeConsumer connection consumerId
    match record.runtimeMode, cursorDeleted with
    | .persistent, .error message => (.error message, removed)
    | _, _ => (.ok (), removed.forgetSubscription record)

/-- A handler that got through writes its reply. -/
def reply (written : Except String Unit) (outcome : Outcome) : Outcome :=
  match outcome with
  | (.error message, registry) => (.error message, registry)
  | (.ok _, registry) => (written, registry)

def handleConnect (protocolVersion : Int) (written : Except String Unit)
    (registry : Registry) : Outcome :=
  match written with
  | .error message =>
    (.error message, registry.modifyCnx connection fun cnx => { cnx with state := .connecting })
  | .ok _ => (.ok (), registry.modifyCnx connection fun cnx => { cnx with
      state := .connected
      handshakeCompleted := true
      remoteProtocolVersion := protocolVersion
      waitingForPong := false
      connectionCheckInProgress := none })

def handleCommand (command : Command) (written : Except String Unit)
    (registry : Registry) : Outcome :=
  let cnx := registry.connections connection
  if !cnx.handshakeCompleted && !command.allowedBeforeHandshake then
    (.error "received command before Connect handshake completed", registry)
  else if cnx.state = .failed ∨ cnx.state = .closing ∨ cnx.state = .closed then
    (.error "received command on closing/closed connection", registry)
  else
    match command with
    | .connect protocolVersion => registry.handleConnect connection protocolVersion written
    | .producer topic producerId =>
      reply written (registry.registerProducer connection topic producerId)
    | .closeProducer producerId => (written, registry.removeProducer connection producerId)
    | .subscribe request cursorOpened =>
      reply written (registry.registerConsumer connection request cursorOpened)
    | .closeConsumer consumerId => (written, registry.removeConsumer connection consumerId)
    | .unsubscribe consumerId cursorDeleted =>
      reply written (registry.unsubscribe connection consumerId cursorDeleted)
    | .ping | .pong | .other => (written, registry)

/-- What `run` of a connection can meet: the arms of its loop, and the steps of
`cleanup`. -/
inductive CnxEvent
  | endOfStream
  | frameError
  | undecodableCommand
  | command (command : Command) (written : Except String Unit)
  | appendsCompleted (result : Except String Unit)
  | messagesWritten (result : Except String Unit)
  | keepAliveTick (handshakeTimedOut : Bool) (written : Except String Unit)
  | connectionCheckDeadline
  | drainProducer (producerId : Nat)
  | drainConsumer (consumerId : Nat)
  | cleanupDone

/-- A frame with a command that could be decoded. -/
def receive (command : Command) (written : Except String Unit) (registry : Registry) : Registry :=
  let handled := handleCommand connection command written
    (registry.modifyCnx connection .markInboundActivity)
  handled.2.modifyCnx connection (.afterResult handled.1)

variable (event : CnxEvent) (registry : Registry)

/-- An arm of the loop. A frame or a command that cannot be decoded makes `run` return
by `?`, past the cleanup. -/
def loopStep : Registry :=
  match event with
  | .endOfStream => registry.modifyCnx connection fun cnx => .leaveLoop { cnx with
      closeReason := cnx.closeReason.or (some .clientClosed) }
  | .frameError | .undecodableCommand =>
    registry.modifyCnx connection fun cnx => { cnx with phase := .returned }
  | .command command written => registry.receive connection command written
  | .appendsCompleted result | .messagesWritten result =>
    registry.modifyCnx connection (.afterResult result)
  | .keepAliveTick handshakeTimedOut written =>
    registry.modifyCnx connection (.handleKeepAliveTick handshakeTimedOut written)
  | .connectionCheckDeadline =>
    registry.modifyCnx connection .handleConnectionCheckTimeout
  | .drainProducer _ | .drainConsumer _ | .cleanupDone => registry

/-- A step of `cleanup`: the producers first, then the consumers, each in any order. -/
def cleanupStep : Registry :=
  let cnx := registry.connections connection
  match event with
  | .drainProducer producerId => registry.removeProducer connection producerId
  | .drainConsumer consumerId =>
    if cnx.producers.bindings.isEmpty then registry.removeConsumer connection consumerId
    else registry
  | .cleanupDone =>
    if cnx.producers.bindings.isEmpty && cnx.consumers.bindings.isEmpty then
      registry.modifyCnx connection fun cnx => { cnx with
        state := .closed
        phase := .returned }
    else registry
  | _ => registry

structure Step where
  connection : Nat
  event : CnxEvent

def step (registry : Registry) (next : Step) : Registry :=
  match (registry.connections next.connection).phase with
  | .running => registry.loopStep next.connection next.event
  | .cleaning => registry.cleanupStep next.connection next.event
  | .returned => registry

end Registry

end PulsarLite.Broker
