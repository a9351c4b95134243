import PulsarLite.Broker.ConnectionListing

/-!
# What connections can do to each other

Topics and subscriptions know producers and consumers by the bare number. As long as
no connection registers under a number that another one has there, none can remove
what another one registered, and what becomes of a command does not depend on the
numbers that another connection has chosen.
-/

namespace PulsarLite.Broker.Registry

open Library Storage List BrokerService SubscriptionRecord Run OrderedMap Function ServerCnx
open Registry (ext mk reply start step)

variable {registry : Registry} {consumerId handle renamed defaultPartitions : Nat}
  {change : ServerCnx → ServerCnx} {next : Step}

/-- Nobody else is listed under the number in the topic or the subscription. -/
def Apart (registry : Registry) (next : Step) : Prop :=
  match next.event with
  | .command (.producer topic producerId) _ =>
    ∀ key, (registry.broker.getOrCreateTopicAuto topic).1 = .concrete key →
      registry.listing.producers.Free next.connection key producerId
  | .command (.subscribe request _) _ =>
    ∀ handle, registry.Asks request handle →
      registry.listing.consumers.Free next.connection handle request.consumerId
  | _ => True

section

variable {connection : Nat}

/-- Every connection is listed wherever it holds a number. -/
structure Honoured (listing : Listing) : Prop where
  producers : ∀ connection, listing.producers.Honoured connection
  consumers : ∀ connection, listing.consumers.Honoured connection

theorem free_of_vacant {roll : Roll Nat} (vacant : consumerId ∉ roll.listed handle) :
    roll.Free connection handle consumerId :=
  fun _ listed => absurd (mem_of_binding listed) vacant

theorem Honoured.start (partitionMetadata : Text → Option Nat) (defaultPartitions : Nat) :
    Honoured (start partitionMetadata defaultPartitions).listing where
  producers _ _ _ held := absurd held not_mem_nil
  consumers _ _ _ held := absurd held not_mem_nil

theorem Honoured.step (honoured : Honoured registry.listing) (apart : registry.Apart next) :
    Honoured (registry.step next).listing := by
  have effect := step_effect registry next
  generalize (registry.step next).listing = after at effect
  cases effect with
  | same => exact honoured
  | addProducer topic producerId key written isEvent located fresh =>
    unfold Apart at apart
    rw [isEvent] at apart
    exact ⟨fun other => (honoured.producers other).enter (apart key located), honoured.consumers⟩
  | removeProducer key producerId held =>
    have listed := honoured.producers next.connection producerId key held
    exact ⟨fun other => (honoured.producers other).leave listed, honoured.consumers⟩
  | addConsumer request cursorOpened written handle isEvent asked vacant =>
    exact ⟨honoured.producers, fun other =>
      (honoured.consumers other).enter (free_of_vacant vacant)⟩
  | removeConsumer handle consumerId held =>
    have listed := honoured.consumers next.connection consumerId handle held
    exact ⟨honoured.producers, fun other => (honoured.consumers other).leave listed⟩

theorem Honoured.keeps (honoured : Honoured registry.listing) (apart : registry.Apart next)
    (another : connection ≠ next.connection) :
    (∀ key producerId, registry.listing.producers.Lists key producerId connection →
      (registry.step next).listing.producers.Lists key producerId connection) ∧
    ∀ handle consumerId, registry.listing.consumers.Lists handle consumerId connection →
      (registry.step next).listing.consumers.Lists handle consumerId connection := by
  have effect := step_effect registry next
  generalize (registry.step next).listing = after at effect
  cases effect with
  | same => exact ⟨fun _ _ listed => listed, fun _ _ listed => listed⟩
  | addProducer topic producerId key written isEvent located fresh =>
    unfold Apart at apart
    rw [isEvent] at apart
    exact ⟨fun _ _ listed => listed.enter another (apart key located), fun _ _ listed => listed⟩
  | removeProducer key producerId held =>
    have own := honoured.producers next.connection producerId key held
    exact ⟨fun _ _ listed => listed.leave another own, fun _ _ listed => listed⟩
  | addConsumer request cursorOpened written handle isEvent asked vacant =>
    exact ⟨fun _ _ listed => listed, fun _ _ listed =>
      listed.enter another (free_of_vacant vacant)⟩
  | removeConsumer handle consumerId held =>
    have own := honoured.consumers next.connection consumerId handle held
    exact ⟨fun _ _ listed => listed, fun _ _ listed => listed.leave another own⟩

end

section

def outlineCnx (cnx : ServerCnx) : ServerCnx :=
  { cnx with
    producers := .empty
    consumers := .empty
    closeReason := none }

def outlineBroker (broker : BrokerService) : BrokerService :=
  { broker with
    topicAt := fun key => { broker.topicAt key with producers := .empty } }

def outlineRecord (record : SubscriptionRecord) : SubscriptionRecord :=
  { record with consumers := .empty }

/-- The registry without numbers. -/
def outline (registry : Registry) : Registry where
  broker := outlineBroker registry.broker
  subscriptions := registry.subscriptions.map outlineRecord
  connections := fun connection => outlineCnx (registry.connections connection)

variable {broker : BrokerService}

theorem outline_partitioned (name partitionCount) :
    (outlineBroker broker).getOrCreatePartitionedTopic name partitionCount =
      ((broker.getOrCreatePartitionedTopic name partitionCount).1,
        outlineBroker (broker.getOrCreatePartitionedTopic name partitionCount).2) := by
  unfold getOrCreatePartitionedTopic outlineBroker
  cases broker.partitionedTopics name <;> rfl

theorem outline_partition (name : Text) : (outlineBroker broker).getPartition name =
      ((broker.getPartition name).1, outlineBroker (broker.getPartition name).2) := by
  unfold getPartition
  cases getBaseTopicName name with
  | none => rfl
  | some baseName =>
    cases getPartitionIndex name with
    | none => rfl
    | some index =>
      have count : (outlineBroker broker).partitionCountOf baseName =
          broker.partitionCountOf baseName := rfl
      dsimp only
      rw [count, outline_partitioned]
      by_cases positive : 0 < broker.partitionCountOf baseName
      · rw [if_pos positive, if_pos positive]
      · rw [if_neg positive, if_neg positive]

theorem outline_auto (name : Text) : (outlineBroker broker).getOrCreateTopicAuto name =
      ((broker.getOrCreateTopicAuto name).1,
        outlineBroker (broker.getOrCreateTopicAuto name).2) := by
  unfold getOrCreateTopicAuto
  rw [outline_partition]
  obtain ⟨found, after⟩ := broker.getPartition name
  cases found with
  | some key => rfl
  | none =>
    have count : (outlineBroker after).partitionCountOf name = after.partitionCountOf name := rfl
    have partitioned : (outlineBroker after).shouldBePartitioned name =
        after.shouldBePartitioned name := rfl
    dsimp only
    rw [count, partitioned, outline_partitioned]
    split_ifs
    · rfl
    · unfold getOrCreateTopic
      change (_, if name ∈ after.topics then _ else _) = _
      split_ifs <;> rfl

theorem outline_modify_topic (key : TopicKey) {change : Topic → Topic}
    (keeps : ∀ topic, (change topic).subscriptions = topic.subscriptions) :
    outlineBroker (broker.modifyTopic key change) = outlineBroker broker := by
  apply BrokerService.ext
  · rfl
  · rfl
  · rfl
  · rfl
  funext other
  unfold outlineBroker modifyTopic
  by_cases isKey : other = key
  · subst isKey
    dsimp only
    rw [update_self, keeps]
  · dsimp only
    rw [update_of_ne isKey]

theorem outline_modify_topic_congr {other} (same : outlineBroker broker = outlineBroker other)
    (key : TopicKey)
    {change otherChange : Topic → Topic}
    (names : (change (broker.topicAt key)).subscriptions =
      (otherChange (other.topicAt key)).subscriptions) :
    outlineBroker (broker.modifyTopic key change) =
      outlineBroker (other.modifyTopic key otherChange) := by
  obtain ⟨topics, partitioned, metadata, partitions, heaps⟩ := BrokerService.mk.inj same
  apply BrokerService.ext
  · exact topics
  · exact partitioned
  · exact metadata
  · exact partitions
  funext place
  simp only [outlineBroker, modifyTopic]
  by_cases isKey : place = key
  · subst isKey
    rw [update_self, update_self, names]
  · rw [update_of_ne isKey, update_of_ne isKey]
    exact congrFun heaps place

theorem outline_modify_cnx {connection : Nat}
    (keeps : ∀ cnx, outlineCnx (change cnx) = outlineCnx cnx) :
    (registry.modifyCnx connection change).outline = registry.outline := by
  apply ext
  · rfl
  · rfl
  funext other
  unfold outline modifyCnx
  by_cases isConnection : other = connection
  · subst isConnection
    dsimp only
    rw [update_self, keeps]
  · dsimp only
    rw [update_of_ne isConnection]

theorem outline_set {subscriptions : List SubscriptionRecord} {record replaced}
    (known : subscriptions[handle]? = some record)
    (same : outlineRecord replaced = outlineRecord record) :
    (subscriptions.set handle replaced).map outlineRecord = subscriptions.map outlineRecord := by
  apply ext_getElem?
  intro other
  rw [getElem?_map, getElem?_map]
  by_cases isHandle : handle = other
  · subst isHandle
    rw [List.getElem?_set_self (List.getElem?_eq_some_iff.mp known).1, known, Option.map_some,
      Option.map_some, same]
  · rw [getElem?_set_ne isHandle]

theorem outline_remove (subscriptions : List SubscriptionRecord) (handle consumerId : Nat) :
    (subscriptions.modify handle (.removeConsumer consumerId)).map outlineRecord =
      subscriptions.map outlineRecord := by
  apply ext_getElem?
  intro other
  rw [getElem?_map, getElem?_map, getElem?_modify]
  cases subscriptions[other]? with
  | none => rfl
  | some record =>
    by_cases isHandle : handle = other
    · simp [isHandle, outlineRecord, SubscriptionRecord.removeConsumer]
    · simp [isHandle]

end

section

variable {written leftResult rightResult : Except String Unit}

/-- Other numbers for the producers and consumers of each connection. -/
structure Names where
  producer : Nat → Nat → Nat
  consumer : Nat → Nat → Nat
  producers : ∀ connection, (producer connection).Injective
  consumers : ∀ connection, (consumer connection).Injective

abbrev Names.request (names : Names) (connection : Nat) (request : CommandSubscribe) :
    CommandSubscribe :=
  { request with consumerId := names.consumer connection request.consumerId }

/-- The same but for the numbers, which are renamed for each connection. -/
structure Alike (names : Names) (left right : Registry) : Prop where
  outline : left.outline = right.outline
  producers : Roll.Renamed names.producer left.listing.producers right.listing.producers
  consumers : Roll.Renamed names.consumer left.listing.consumers right.listing.consumers

variable {names : Names} {left right : Registry} {connection : Nat}

namespace Alike

variable (alike : Alike names left right)
include alike

theorem broker : outlineBroker left.broker = outlineBroker right.broker :=
  congrArg Registry.broker alike.outline

theorem auto (topic : Text) :
    (left.broker.getOrCreateTopicAuto topic).1 = (right.broker.getOrCreateTopicAuto topic).1 ∧
      outlineBroker (left.broker.getOrCreateTopicAuto topic).2 =
        outlineBroker (right.broker.getOrCreateTopicAuto topic).2 := by
  have same := congrArg (getOrCreateTopicAuto topic) alike.broker
  rw [outline_auto, outline_auto] at same
  exact Prod.mk.inj same

theorem subscriptions_at (key : TopicKey) :
    (left.broker.topicAt key).subscriptions = (right.broker.topicAt key).subscriptions :=
  congrArg (fun broker => (broker.topicAt key).subscriptions) alike.broker

theorem records : left.subscriptions.map outlineRecord = right.subscriptions.map outlineRecord :=
  congrArg Registry.subscriptions alike.outline

theorem length_eq : left.subscriptions.length = right.subscriptions.length := by
  have same := congrArg List.length alike.records
  rwa [length_map, length_map] at same

theorem outline_connections : left.outline.connections = right.outline.connections :=
  congrArg Registry.connections alike.outline

theorem cnx (connection : Nat) :
    outlineCnx (left.connections connection) = outlineCnx (right.connections connection) :=
  congrArg (fun registry => registry.connections connection) alike.outline

theorem phase (connection : Nat) :
    (left.connections connection).phase = (right.connections connection).phase :=
  (ServerCnx.mk.inj (alike.cnx connection)).2.2.2.2.2.2.2.2

theorem of_listing {leftAfter rightAfter : Registry}
    (outlines : leftAfter.outline = rightAfter.outline)
    (leftSame : leftAfter.listing = left.listing) (rightSame : rightAfter.listing = right.listing) :
    Alike names leftAfter rightAfter where
  outline := outlines
  producers := by
    rw [leftSame, rightSame]
    exact alike.producers
  consumers := by
    rw [leftSame, rightSame]
    exact alike.consumers

theorem record_at (handle : Nat) :
    left.subscriptions[handle]? = none ∧ right.subscriptions[handle]? = none ∨
      ∃ leftRecord rightRecord, left.subscriptions[handle]? = some leftRecord ∧
        right.subscriptions[handle]? = some rightRecord ∧
        outlineRecord leftRecord = outlineRecord rightRecord := by
  have records := congrArg (fun records => records[handle]?) alike.records
  rw [getElem?_map, getElem?_map] at records
  cases leftKnown : left.subscriptions[handle]? with
  | none =>
    rw [leftKnown] at records
    exact .inl ⟨rfl, Option.map_eq_none_iff.mp records.symm⟩
  | some leftRecord =>
    rw [leftKnown] at records
    obtain ⟨rightRecord, rightKnown, same⟩ := Option.map_eq_some_iff.mp records.symm
    exact .inr ⟨leftRecord, rightRecord, rfl, rightKnown, same.symm⟩

end Alike

def Matched (names : Names) (left right : Outcome) : Prop :=
  left.1.isOk = right.1.isOk ∧ Alike names left.2 right.2

namespace Alike

variable (alike : Alike names left right)
include alike

theorem with_auto (topic : Text) : Alike names
      { left with broker := (left.broker.getOrCreateTopicAuto topic).2 }
      { right with broker := (right.broker.getOrCreateTopicAuto topic).2 } := by
  refine alike.of_listing (ext ?_ ?_ ?_) (listing_of_auto _ _) (listing_of_auto _ _)
  · exact (alike.auto topic).2
  · exact alike.records
  · exact alike.outline_connections

theorem modify_cnx
    {leftChange rightChange : ServerCnx → ServerCnx} (leftKeeps : KeepsMaps leftChange)
    (rightKeeps : KeepsMaps rightChange)
    (same : outlineCnx (leftChange (left.connections connection)) =
      outlineCnx (rightChange (right.connections connection))) :
    Alike names (left.modifyCnx connection leftChange)
      (right.modifyCnx connection rightChange) := by
  refine alike.of_listing (ext ?_ ?_ ?_) (listing_modify_cnx _ _ leftKeeps)
    (listing_modify_cnx _ _ rightKeeps)
  · exact alike.broker
  · exact alike.records
  funext other
  unfold Registry.outline modifyCnx
  dsimp only
  by_cases isConnection : other = connection
  · subst isConnection
    rw [update_self, update_self]
    exact same
  · rw [update_of_ne isConnection, update_of_ne isConnection]
    exact alike.cnx other

theorem change_producers {key : TopicKey}
    {leftBroker rightBroker : BrokerService} {leftTopic rightTopic : Topic → Topic}
    {leftMap rightMap : OrderedMap Nat TopicKey → OrderedMap Nat TopicKey}
    (brokers : outlineBroker leftBroker = outlineBroker rightBroker)
    (leftSame : leftBroker.topicAt = left.broker.topicAt)
    (rightSame : rightBroker.topicAt = right.broker.topicAt)
    (leftKeeps : ∀ topic, (leftTopic topic).subscriptions = topic.subscriptions)
    (rightKeeps : ∀ topic, (rightTopic topic).subscriptions = topic.subscriptions)
    (renamed : Roll.Renamed names.producer
      { listed := update left.listing.producers.listed key
          (leftTopic (left.broker.topicAt key)).producers
        held := update left.listing.producers.held connection
          (leftMap (left.listing.producers.held connection)) }
      { listed := update right.listing.producers.listed key
          (rightTopic (right.broker.topicAt key)).producers
        held := update right.listing.producers.held connection
          (rightMap (right.listing.producers.held connection)) }) :
    Alike names
      (modifyCnx connection (modifyProducers leftMap)
        { left with broker := leftBroker.modifyTopic key leftTopic })
      (modifyCnx connection (modifyProducers rightMap)
        { right with broker := rightBroker.modifyTopic key rightTopic }) where
  outline := by
    have leftCnx : ∀ cnx, outlineCnx (modifyProducers leftMap cnx) = outlineCnx cnx := fun _ => rfl
    have rightCnx : ∀ cnx, outlineCnx (modifyProducers rightMap cnx) = outlineCnx cnx :=
      fun _ => rfl
    rw [outline_modify_cnx leftCnx, outline_modify_cnx rightCnx]
    apply ext
    · change outlineBroker (leftBroker.modifyTopic key _) =
        outlineBroker (rightBroker.modifyTopic key _)
      rw [outline_modify_topic key leftKeeps, outline_modify_topic key rightKeeps]
      exact brokers
    · exact alike.records
    · exact alike.outline_connections
  producers := by
    rw [listing_modify_producers connection left key _ _ leftSame,
      listing_modify_producers connection right key _ _ rightSame]
    exact renamed
  consumers := by
    rw [listing_modify_producers connection left key _ _ leftSame,
      listing_modify_producers connection right key _ _ rightSame]
    exact alike.consumers

theorem change_consumers {leftRecords rightRecords : List SubscriptionRecord}
    {leftMap rightMap : OrderedMap Nat Nat → OrderedMap Nat Nat}
    (leftSame : leftRecords.map outlineRecord = left.subscriptions.map outlineRecord)
    (rightSame : rightRecords.map outlineRecord = right.subscriptions.map outlineRecord)
    (renamed : Roll.Renamed names.consumer
      { listed := { left with subscriptions := leftRecords }.consumersAt
        held := update left.listing.consumers.held connection
          (leftMap (left.listing.consumers.held connection)) }
      { listed := { right with subscriptions := rightRecords }.consumersAt
        held := update right.listing.consumers.held connection
          (rightMap (right.listing.consumers.held connection)) }) :
    Alike names
      (modifyCnx connection (modifyConsumers leftMap)
        { left with subscriptions := leftRecords })
      (modifyCnx connection (modifyConsumers rightMap)
        { right with subscriptions := rightRecords }) where
  outline := by
    have leftCnx : ∀ cnx, outlineCnx (modifyConsumers leftMap cnx) = outlineCnx cnx := fun _ => rfl
    have rightCnx : ∀ cnx, outlineCnx (modifyConsumers rightMap cnx) = outlineCnx cnx :=
      fun _ => rfl
    rw [outline_modify_cnx leftCnx, outline_modify_cnx rightCnx]
    apply ext
    · exact alike.broker
    · exact leftSame.trans (alike.records.trans rightSame.symm)
    · exact alike.outline_connections
  producers := by
    rw [listing_modify_consumers, listing_modify_consumers]
    exact alike.producers
  consumers := by
    rw [listing_modify_consumers, listing_modify_consumers]
    exact renamed

end Alike

section

variable (alike : Alike names left right)
include alike

theorem register_producer_matched {topic : Text} {producerId : Nat}
    (leftFree : ∀ key, (left.broker.getOrCreateTopicAuto topic).1 = .concrete key →
      left.listing.producers.Free connection key producerId)
    (rightFree : ∀ key, (right.broker.getOrCreateTopicAuto topic).1 = .concrete key →
      right.listing.producers.Free connection key (names.producer connection producerId)) :
    Matched names (left.registerProducer connection topic producerId)
      (right.registerProducer connection topic (names.producer connection producerId)) := by
  have known : names.producer connection producerId ∈ (right.connections connection).producers ↔
      producerId ∈ (left.connections connection).producers :=
    alike.producers.mem_held_iff (names.producers connection)
  have located := alike.auto topic
  have found := alike.with_auto topic
  have leftTopics := auto_topic_at topic left.broker
  have rightTopics := auto_topic_at topic right.broker
  unfold registerProducer
  by_cases holds : producerId ∈ (left.connections connection).producers
  · rw [if_pos holds, if_pos (known.mpr holds)]
    exact ⟨rfl, alike⟩
  rw [if_neg holds, if_neg (fun other => holds (known.mp other))]
  cases leftAuto : left.broker.getOrCreateTopicAuto topic with
  | mk leftRef leftBroker =>
    cases rightAuto : right.broker.getOrCreateTopicAuto topic with
    | mk rightRef rightBroker =>
      rw [leftAuto, rightAuto] at located found
      rw [leftAuto] at leftTopics leftFree
      rw [rightAuto] at rightTopics rightFree
      obtain ⟨rfl, brokers⟩ := located
      cases leftRef with
      | partitioned => exact ⟨rfl, found⟩
      | concrete key =>
        refine ⟨rfl, ?_⟩
        apply alike.change_producers brokers leftTopics rightTopics
        · exact fun _ => rfl
        · exact fun _ => rfl
        · exact alike.producers.enter (names.producers connection) (leftFree key rfl)
            (rightFree key rfl)

theorem remove_producer_alike
    (honoured : left.listing.producers.Honoured connection) (producerId : Nat) :
    Alike names (left.removeProducer connection producerId)
      (right.removeProducer connection (names.producer connection producerId)) := by
  have same : (right.connections connection).producers.find (names.producer connection producerId) =
      (left.connections connection).producers.find producerId :=
    alike.producers.find_held (names.producers connection)
  unfold removeProducer
  rw [same]
  cases held : (left.connections connection).producers.find producerId with
  | none => exact alike
  | some key =>
    have listed := honoured producerId key (find_eq_some.mp held)
    apply alike.change_producers alike.broker rfl rfl
    · exact fun _ => rfl
    · exact fun _ => rfl
    · exact alike.producers.leave (names.producers connection) listed

theorem remove_consumer_alike
    (honoured : left.listing.consumers.Honoured connection) (consumerId : Nat) :
    Alike names (left.removeConsumer connection consumerId)
      (right.removeConsumer connection (names.consumer connection consumerId)) := by
  have same : (right.connections connection).consumers.find (names.consumer connection consumerId) =
      (left.connections connection).consumers.find consumerId :=
    alike.consumers.find_held (names.consumers connection)
  unfold removeConsumer
  rw [same]
  cases held : (left.connections connection).consumers.find consumerId with
  | none => exact alike
  | some handle =>
    have listed := honoured consumerId handle (find_eq_some.mp held)
    apply alike.change_consumers (outline_remove _ _ _) (outline_remove _ _ _)
    rw [consumers_at_remove, consumers_at_remove]
    exact alike.consumers.leave (names.consumers connection) listed

theorem get_or_create_subscription_alike (key request consumerId cursorOpened) :
    (left.getOrCreateSubscription key request cursorOpened).1 =
        (right.getOrCreateSubscription key { request with consumerId := consumerId }
          cursorOpened).1 ∧
      Alike names (left.getOrCreateSubscription key request cursorOpened).2
        (right.getOrCreateSubscription key { request with consumerId := consumerId }
          cursorOpened).2 := by
  have outlines : (left.getOrCreateSubscription key request cursorOpened).1 =
        (right.getOrCreateSubscription key { request with consumerId := consumerId }
          cursorOpened).1 ∧
      (left.getOrCreateSubscription key request cursorOpened).2.outline =
        (right.getOrCreateSubscription key { request with consumerId := consumerId }
          cursorOpened).2.outline := by
    have names := alike.subscriptions_at key
    unfold getOrCreateSubscription
    rw [names]
    cases (right.broker.topicAt key).subscriptions request.subscription with
    | some handle => exact ⟨rfl, alike.outline⟩
    | none =>
      have created : (mk (left.broker.modifyTopic key fun topic => { topic with
            subscriptions := update topic.subscriptions request.subscription
              (some left.subscriptions.length) })
          (left.subscriptions ++ [new key.name request.subscription
            (subscriptionTypeOf request.subType) request.keySharedPolicy])
          left.connections).outline =
        (mk (right.broker.modifyTopic key fun topic => { topic with
            subscriptions := update topic.subscriptions request.subscription
              (some right.subscriptions.length) })
          (right.subscriptions ++ [new key.name request.subscription
            (subscriptionTypeOf request.subType) request.keySharedPolicy])
          right.connections).outline := by
        apply ext
        · apply outline_modify_topic_congr alike.broker
          rw [names, alike.length_eq]
        · simp only [outline, map_append, alike.records]
        · exact alike.outline_connections
      rw [alike.length_eq] at created ⊢
      cases runtimeModeFromTopicName key.name <;> cases cursorOpened <;>
        first | exact ⟨rfl, created⟩ | exact ⟨rfl, alike.outline⟩
  exact ⟨outlines.1, alike.of_listing outlines.2 (get_or_create_subscription_listing ..)
    (get_or_create_subscription_listing ..)⟩

theorem join_matched {request : CommandSubscribe}
    (leftFree : left.listing.consumers.Free connection handle request.consumerId)
    (rightFree : right.listing.consumers.Free connection handle (names.consumer connection
      request.consumerId)) :
    Matched names (left.join connection handle request)
      (right.join connection handle (names.request connection request)) := by
  unfold join
  rcases alike.record_at handle with ⟨leftNone, rightNone⟩ |
    ⟨leftRecord, rightRecord, leftKnown, rightKnown, sameRecord⟩
  · rw [leftNone, rightNone]
    exact ⟨rfl, alike⟩
  rw [leftKnown, rightKnown]
  have leftConsumers : left.listing.consumers.listed handle = leftRecord.consumers := by
    change left.consumersAt handle = _
    rw [consumersAt, leftKnown]
    rfl
  have rightConsumers : right.listing.consumers.listed handle = rightRecord.consumers := by
    change right.consumersAt handle = _
    rw [consumersAt, rightKnown]
    rfl
  have connected : leftRecord.isConsumerConnected = rightRecord.isConsumerConnected := by
    have nobody : (right.listing.consumers.listed handle).bindings = [] ↔
        (left.listing.consumers.listed handle).bindings = [] := alike.consumers.nobody_iff
    rw [leftConsumers, rightConsumers, ← List.isEmpty_iff, ← List.isEmpty_iff] at nobody
    unfold isConsumerConnected
    rw [Bool.eq_iff_iff.mpr nobody]
  have taken : names.consumer connection request.consumerId ∈ rightRecord.consumers ↔
      request.consumerId ∈ leftRecord.consumers := by
    rw [← leftConsumers, ← rightConsumers]
    exact alike.consumers.mem_listed_iff (names.consumers connection) leftFree rightFree
  have kept := SubscriptionRecord.mk.inj sameRecord
  have admitted : leftRecord.admission request.consumerId request.keySharedPolicy = .ok () ↔
      rightRecord.admission (names.consumer connection request.consumerId)
        request.keySharedPolicy = .ok () :=
    admit_ok_congr kept.2.2.1 kept.2.2.2.1 kept.2.2.2.2.1 connected taken.symm
  dsimp only
  unfold addConsumer
  cases leftAdmitted : leftRecord.admission request.consumerId request.keySharedPolicy with
  | error message =>
    rw [leftAdmitted] at admitted
    cases rightAdmitted : rightRecord.admission (names.consumer connection request.consumerId)
        request.keySharedPolicy with
    | error other => exact ⟨rfl, alike⟩
    | ok _ => cases admitted.mpr rightAdmitted
  | ok _ =>
    rw [admitted.mp leftAdmitted]
    refine ⟨rfl, ?_⟩
    apply alike.change_consumers
    · exact outline_set leftKnown rfl
    · exact outline_set rightKnown rfl
    · rw [left.consumers_at_set leftKnown, right.consumers_at_set rightKnown, ← leftConsumers,
        ← rightConsumers]
      exact alike.consumers.enter (names.consumers connection) leftFree rightFree

theorem register_consumer_matched {request cursorOpened}
    (leftFree : ∀ handle, left.Asks request handle →
      left.listing.consumers.Free connection handle request.consumerId)
    (rightFree : ∀ handle, right.Asks (names.request connection request) handle →
      right.listing.consumers.Free connection handle
        (names.consumer connection request.consumerId)) :
    Matched names (left.registerConsumer connection request cursorOpened)
      (right.registerConsumer connection (names.request connection request) cursorOpened) := by
  have located := alike.auto request.topic
  have found := alike.with_auto request.topic
  have leftTopics := auto_topic_at request.topic left.broker
  have rightTopics := auto_topic_at request.topic right.broker
  unfold registerConsumer
  cases leftAuto : left.broker.getOrCreateTopicAuto request.topic with
  | mk leftRef leftBroker =>
    cases rightAuto : right.broker.getOrCreateTopicAuto request.topic with
    | mk rightRef rightBroker =>
      rw [leftAuto, rightAuto] at located found
      rw [leftAuto] at leftTopics
      rw [rightAuto] at rightTopics
      obtain ⟨rfl, _⟩ := located
      cases leftRef with
      | partitioned => exact ⟨rfl, found⟩
      | concrete key =>
        have created := get_or_create_subscription_alike found key request
          (names.consumer connection request.consumerId) cursorOpened
        have leftListing := get_or_create_subscription_listing
          { left with broker := leftBroker } key request cursorOpened
        have rightListing := get_or_create_subscription_listing
          { right with broker := rightBroker } key (names.request connection request) cursorOpened
        dsimp only
        cases leftMade : getOrCreateSubscription key request cursorOpened
            { left with broker := leftBroker } with
        | mk leftResult leftAfter =>
          cases rightMade : getOrCreateSubscription key (names.request connection request)
              cursorOpened { right with broker := rightBroker } with
          | mk rightResult rightAfter =>
            rw [leftMade, rightMade] at created
            rw [leftMade] at leftListing
            rw [rightMade] at rightListing
            obtain ⟨rfl, after⟩ := created
            cases leftResult with
            | error message => exact ⟨rfl, after⟩
            | ok handle =>
              have leftAsked := get_or_create_subscription_handle _ leftMade
              have rightAsked := get_or_create_subscription_handle _ rightMade
              rw [leftTopics] at leftAsked
              rw [rightTopics] at rightAsked
              apply join_matched after
              · rw [leftListing, listing_of_broker left fun key => by rw [leftTopics]]
                exact leftFree handle ⟨key, by rw [leftAuto], leftAsked⟩
              · rw [rightListing, listing_of_broker right fun key => by rw [rightTopics]]
                exact rightFree handle ⟨key, by rw [rightAuto], rightAsked⟩

theorem forget_subscription_alike {leftRecord rightRecord}
    (sameRecord : outlineRecord leftRecord = outlineRecord rightRecord) :
    Alike names (left.forgetSubscription leftRecord) (right.forgetSubscription rightRecord) := by
  refine alike.of_listing ?_ (forget_subscription_listing ..) (forget_subscription_listing ..)
  have sameTopic : leftRecord.topic = rightRecord.topic := (SubscriptionRecord.mk.inj sameRecord).1
  have sameName : leftRecord.name = rightRecord.name := (SubscriptionRecord.mk.inj sameRecord).2.1
  have topics : left.broker.topics = right.broker.topics := (BrokerService.mk.inj alike.broker).1
  unfold forgetSubscription getTopic
  rw [sameTopic, topics]
  split_ifs
  · apply ext
    · apply outline_modify_topic_congr alike.broker
      simp only [Topic.removeSubscription, sameName, alike.subscriptions_at]
    · exact alike.records
    · exact alike.outline_connections
  · exact alike.outline

theorem unsubscribe_matched (honoured : left.listing.consumers.Honoured connection)
    (consumerId : Nat) (cursorDeleted) :
    Matched names (left.unsubscribe connection consumerId cursorDeleted)
      (right.unsubscribe connection (names.consumer connection consumerId) cursorDeleted) := by
  have same : (right.connections connection).consumers.find (names.consumer connection consumerId) =
      (left.connections connection).consumers.find consumerId :=
    alike.consumers.find_held (names.consumers connection)
  have removed := remove_consumer_alike alike honoured consumerId
  unfold unsubscribe
  rw [same]
  cases (left.connections connection).consumers.find consumerId with
  | none => exact ⟨rfl, alike⟩
  | some handle =>
    simp only [Option.bind_some]
    rcases alike.record_at handle with ⟨leftNone, rightNone⟩ |
      ⟨leftRecord, rightRecord, leftKnown, rightKnown, sameRecord⟩
    · rw [leftNone, rightNone]
      exact ⟨rfl, alike⟩
    rw [leftKnown, rightKnown]
    have sameMode : leftRecord.runtimeMode = rightRecord.runtimeMode :=
      (SubscriptionRecord.mk.inj sameRecord).2.2.2.1
    have forgotten := forget_subscription_alike removed sameRecord
    dsimp only
    rw [sameMode]
    cases rightRecord.runtimeMode <;> cases cursorDeleted <;>
      first | exact ⟨rfl, removed⟩ | exact ⟨rfl, forgotten⟩

omit alike in
theorem Matched.reply {leftOutcome rightOutcome : Outcome}
    (matched : Matched names leftOutcome rightOutcome) (written) :
    Matched names (reply written leftOutcome) (reply written rightOutcome) := by
  obtain ⟨leftResult, leftAfter⟩ := leftOutcome
  obtain ⟨rightResult, rightAfter⟩ := rightOutcome
  obtain ⟨results, after⟩ := matched
  cases leftResult with
  | error message =>
    cases rightResult with
    | error other => exact ⟨rfl, after⟩
    | ok _ => cases results
  | ok _ =>
    cases rightResult with
    | error other => cases results
    | ok _ => exact ⟨rfl, after⟩

end

def RespectsOutline (change : ServerCnx → ServerCnx) : Prop :=
  ∀ cnx, outlineCnx (change (outlineCnx cnx)) = outlineCnx (change cnx)

theorem Alike.modify_same (alike : Alike names left right)
    (keeps : KeepsMaps change) (respects : RespectsOutline change) :
    Alike names (left.modifyCnx connection change) (right.modifyCnx connection change) := by
  apply alike.modify_cnx keeps keeps
  rw [← respects, alike.cnx, respects]

theorem outline_after_result {first second : ServerCnx}
    (results : leftResult.isOk = rightResult.isOk) (same : outlineCnx first = outlineCnx second) :
    outlineCnx (first.afterResult leftResult) = outlineCnx (second.afterResult rightResult) := by
  cases leftResult with
  | ok _ =>
    cases rightResult with
    | ok _ => exact same
    | error other => cases results
  | error message =>
    cases rightResult with
    | ok _ => cases results
    | error other =>
      have broken : ∀ (cnx : ServerCnx) (text : String),
          outlineCnx (cnx.breakWith text) = outlineCnx ((outlineCnx cnx).breakWith "") :=
        fun _ _ => rfl
      change outlineCnx (first.breakWith message) = outlineCnx (second.breakWith other)
      rw [broken first message, broken second other, same]

theorem keep_alive_tick_respects (handshakeTimedOut written) :
    RespectsOutline (.handleKeepAliveTick handshakeTimedOut written) := by
  intro cnx
  unfold handleKeepAliveTick startConnectionLivenessCheck
  obtain ⟨state, completed, version, waiting, check, reason, producers, consumers, phase⟩ := cnx
  cases state <;> cases written <;> cases completed <;> cases handshakeTimedOut <;>
    cases waiting <;> simp only [outlineCnx] <;> (try split_ifs) <;> first | rfl | contradiction

theorem check_timeout_respects : RespectsOutline .handleConnectionCheckTimeout := by
  rintro ⟨state, completed, version, waiting, check, reason, producers, consumers, phase⟩
  rcases check with _ | kind
  · rfl
  · cases kind <;> rfl

section

variable (producerName consumerName : Nat → Nat)

def renameCommand : Command → Command
  | .producer topic producerId => .producer topic (producerName producerId)
  | .closeProducer producerId => .closeProducer (producerName producerId)
  | .subscribe request cursorOpened =>
    .subscribe { request with consumerId := consumerName request.consumerId } cursorOpened
  | .closeConsumer consumerId => .closeConsumer (consumerName consumerId)
  | .unsubscribe consumerId cursorDeleted => .unsubscribe (consumerName consumerId) cursorDeleted
  | command => command

def renameEvent : CnxEvent → CnxEvent
  | .command command written => .command (renameCommand producerName consumerName command) written
  | .drainProducer producerId => .drainProducer (producerName producerId)
  | .drainConsumer consumerId => .drainConsumer (consumerName consumerId)
  | event => event

end

/-- The step of a connection under the names that it has for its numbers. -/
def renameStep (producerNames consumerNames : Nat → Nat → Nat) (next : Step) : Step where
  connection := next.connection
  event := renameEvent (producerNames next.connection) (consumerNames next.connection) next.event

namespace Names

variable (names : Names) (connection : Nat)

abbrev command : Command → Command :=
  renameCommand (names.producer connection) (names.consumer connection)

abbrev event : CnxEvent → CnxEvent :=
  renameEvent (names.producer connection) (names.consumer connection)

end Names

theorem Apart.modify_cnx (apart : registry.Apart next) (keeps : KeepsMaps change) :
    (registry.modifyCnx connection change).Apart next := by
  have same := listing_modify_cnx connection registry keeps
  unfold Apart at apart ⊢
  rw [same]
  exact apart

variable (alike : Alike names left right)
include alike

theorem handle_connect_matched (protocolVersion written) :
    Matched names (left.handleConnect connection protocolVersion written)
      (right.handleConnect connection protocolVersion written) := by
  unfold handleConnect
  cases written with
  | error | ok =>
    refine ⟨rfl, ?_⟩
    dsimp only
    apply alike.modify_same
    · exact fun _ => ⟨rfl, rfl⟩
    · exact fun _ => rfl

variable (honoured : Honoured left.listing)
include honoured

theorem handle_command_matched {command : Command}
    (leftApart : left.Apart ⟨connection, .command command written⟩)
    (rightApart : right.Apart ⟨connection, .command (names.command connection command) written⟩) :
    Matched names (left.handleCommand connection command written)
      (right.handleCommand connection (names.command connection command) written) := by
  have same := ServerCnx.mk.inj (alike.cnx connection)
  have state : (left.connections connection).state = (right.connections connection).state := same.1
  have completed : (left.connections connection).handshakeCompleted =
      (right.connections connection).handshakeCompleted := same.2.1
  have allowed : (names.command connection command).allowedBeforeHandshake =
      command.allowedBeforeHandshake := by
    cases command <;> rfl
  unfold handleCommand
  dsimp only
  rw [state, completed, allowed]
  split_ifs
  · exact ⟨rfl, alike⟩
  · exact ⟨rfl, alike⟩
  cases command with
  | connect protocolVersion => exact handle_connect_matched alike protocolVersion written
  | producer topic producerId =>
    exact (register_producer_matched alike leftApart rightApart).reply written
  | closeProducer producerId =>
    exact ⟨rfl, remove_producer_alike alike (honoured.producers connection) producerId⟩
  | subscribe request cursorOpened =>
    exact (register_consumer_matched alike leftApart rightApart).reply written
  | closeConsumer consumerId =>
    exact ⟨rfl, remove_consumer_alike alike (honoured.consumers connection) consumerId⟩
  | unsubscribe consumerId cursorDeleted =>
    exact (unsubscribe_matched alike (honoured.consumers connection) consumerId
      cursorDeleted).reply written
  | ping | pong | other => exact ⟨rfl, alike⟩

theorem receive_alike {command : Command}
    (leftApart : left.Apart ⟨connection, .command command written⟩)
    (rightApart : right.Apart ⟨connection, .command (names.command connection command) written⟩) :
    Alike names (left.receive connection command written)
      (right.receive connection (names.command connection command) written) := by
  have keeps : KeepsMaps markInboundActivity := fun _ => ⟨rfl, rfl⟩
  have respects : RespectsOutline markInboundActivity := fun _ => rfl
  have inbound : Honoured (left.modifyCnx connection markInboundActivity).listing := by
    rw [listing_modify_cnx _ _ keeps]
    exact honoured
  have handled := handle_command_matched (alike.modify_same keeps respects) inbound
    (leftApart.modify_cnx keeps) (rightApart.modify_cnx keeps)
  apply handled.2.modify_cnx (after_result_maps _) (after_result_maps _)
  exact outline_after_result handled.1 (handled.2.cnx connection)

theorem loop_step_alike {event : CnxEvent} (leftApart : left.Apart ⟨connection, event⟩)
    (rightApart : right.Apart ⟨connection, names.event connection event⟩) :
    Alike names (left.loopStep connection event)
      (right.loopStep connection (names.event connection event)) := by
  cases event with
  | endOfStream | frameError | undecodableCommand =>
    simp only [loopStep, renameEvent]
    apply alike.modify_same
    · exact fun _ => ⟨rfl, rfl⟩
    · exact fun _ => rfl
  | command command written =>
    exact receive_alike alike honoured leftApart rightApart
  | appendsCompleted result =>
    apply alike.modify_cnx (after_result_maps result) (after_result_maps result)
    exact outline_after_result rfl (alike.cnx connection)
  | messagesWritten result =>
    simp only [loopStep, renameEvent]
    apply alike.modify_cnx (after_result_maps result) (after_result_maps result)
    exact outline_after_result rfl (alike.cnx connection)
  | keepAliveTick handshakeTimedOut written =>
    exact alike.modify_same (keep_alive_tick_maps handshakeTimedOut written)
      (keep_alive_tick_respects handshakeTimedOut written)
  | connectionCheckDeadline => exact alike.modify_same check_timeout_maps check_timeout_respects
  | drainProducer | drainConsumer | cleanupDone => exact alike

theorem cleanup_step_alike (event : CnxEvent) :
    Alike names (left.cleanupStep connection event)
      (right.cleanupStep connection (names.event connection event)) := by
  have noProducers : (right.connections connection).producers.bindings.isEmpty =
      (left.connections connection).producers.bindings.isEmpty := by
    rw [Bool.eq_iff_iff, List.isEmpty_iff, List.isEmpty_iff]
    exact alike.producers.nothing_iff
  have noConsumers : (right.connections connection).consumers.bindings.isEmpty =
      (left.connections connection).consumers.bindings.isEmpty := by
    rw [Bool.eq_iff_iff, List.isEmpty_iff, List.isEmpty_iff]
    exact alike.consumers.nothing_iff
  unfold cleanupStep
  dsimp only
  rw [noProducers, noConsumers]
  cases event with
  | drainProducer producerId =>
    exact remove_producer_alike alike (honoured.producers connection) producerId
  | drainConsumer consumerId =>
    simp only [renameEvent]
    split_ifs
    · exact remove_consumer_alike alike (honoured.consumers connection) consumerId
    · exact alike
  | cleanupDone =>
    simp only [renameEvent]
    split_ifs
    · apply alike.modify_same
      · exact fun _ => ⟨rfl, rfl⟩
      · exact fun _ => rfl
    · exact alike
  | _ => exact alike

theorem step_alike (leftApart : left.Apart next)
    (rightApart : right.Apart (renameStep names.producer names.consumer next)) :
    Alike names (left.step next) (right.step (renameStep names.producer names.consumer next)) := by
  unfold step renameStep
  rw [alike.phase]
  cases (right.connections next.connection).phase with
  | running =>
    exact loop_step_alike alike honoured leftApart rightApart
  | cleaning => exact cleanup_step_alike alike honoured next.event
  | returned => exact alike

theorem run_alike {steps : List Step} (leftApart : Run.Permits step Apart left steps)
    (rightApart : Run.Permits step Apart right
      (steps.map (renameStep names.producer names.consumer))) :
    Alike names (steps.foldl step left)
        ((steps.map (renameStep names.producer names.consumer)).foldl step right) ∧
      Honoured (steps.foldl step left).listing := by
  induction steps generalizing left right with
  | nil => exact ⟨alike, honoured⟩
  | cons next steps ih =>
    exact ih (step_alike alike honoured leftApart.1 rightApart.1) (honoured.step leftApart.1)
      leftApart.2 rightApart.2

end

theorem alike_start (names : Names) (partitionMetadata : Text → Option Nat)
    (defaultPartitions : Nat) :
    Alike names (start partitionMetadata defaultPartitions)
      (start partitionMetadata defaultPartitions) where
  outline := rfl
  producers := Roll.renamed_nobody (fun _ _ _ => not_mem_nil) fun _ _ _ => not_mem_nil
  consumers := Roll.renamed_nobody (fun _ _ _ => not_mem_nil) fun _ _ _ => not_mem_nil

def namesOf (renamed : Nat) (name : Nat → Nat) (connection : Nat) : Nat → Nat :=
  if connection = renamed then name else id

theorem names_of_injective {name : Nat → Nat} (distinct : name.Injective) (connection : Nat) :
    (namesOf renamed name connection).Injective := by
  unfold namesOf
  split_ifs
  · exact distinct
  · exact injective_id

/-- The run in which a connection has chosen other numbers. -/
def renumber (renamed : Nat) (producerName consumerName : Nat → Nat) (steps : List Step) :
    List Step :=
  steps.map (renameStep (namesOf renamed producerName) (namesOf renamed consumerName))

theorem rename_command_id (command : Command) : renameCommand id id command = command := by
  cases command <;> rfl

theorem honoured_of_run {partitionMetadata : Text → Option Nat}
    (run : Run step Apart (start partitionMetadata defaultPartitions) registry) :
    Honoured registry.listing := by
  induction run with
  | refl => exact .start partitionMetadata defaultPartitions
  | step next registry before apart ih => exact ih.step apart

/-- Provided that no connection registers under a number that another one has there:
no step removes what another connection has registered, and whether a command of a
connection gets through does not depend on the numbers that another one has chosen. -/
theorem isolated_when_apart (partitionMetadata : Text → Option Nat) (defaultPartitions : Nat) :
    (∀ registry next connection,
      Run Registry.step Apart (Registry.start partitionMetadata defaultPartitions) registry →
      registry.Apart next → connection ≠ next.connection →
        (∀ key producerId, registry.listing.producers.Lists key producerId connection →
          (registry.step next).listing.producers.Lists key producerId connection) ∧
        ∀ handle consumerId, registry.listing.consumers.Lists handle consumerId connection →
          (registry.step next).listing.consumers.Lists handle consumerId connection) ∧
    ∀ (producerName consumerName : Nat → Nat) steps connection other command written,
      producerName.Injective → consumerName.Injective → connection ≠ other →
      Run.Permits Registry.step Apart (Registry.start partitionMetadata defaultPartitions)
        (steps ++ [⟨connection, .command command written⟩]) →
      Run.Permits Registry.step Apart (Registry.start partitionMetadata defaultPartitions)
        (renumber other producerName consumerName steps ++
          [⟨connection, .command command written⟩]) →
        ((steps.foldl Registry.step (Registry.start partitionMetadata
            defaultPartitions)).handleCommand connection command written).1.isOk =
          (((renumber other producerName consumerName steps).foldl Registry.step
            (Registry.start partitionMetadata defaultPartitions)).handleCommand connection command
              written).1.isOk := by
  constructor
  · intro registry next connection run apart another
    exact (honoured_of_run run).keeps apart another
  intro producerName consumerName steps connection other command written distinctProducers
    distinctConsumers another leftPermits rightPermits
  rw [permits_iff] at leftPermits rightPermits
  have leftLast := leftPermits steps ⟨connection, .command command written⟩ [] rfl
  have rightLast := rightPermits (renumber other producerName consumerName steps)
    ⟨connection, .command command written⟩ [] rfl
  rw [← permits_iff] at leftPermits rightPermits
  let names : Names := ⟨namesOf other producerName, namesOf other consumerName,
    names_of_injective distinctProducers, names_of_injective distinctConsumers⟩
  have reached := run_alike (alike_start names partitionMetadata defaultPartitions)
    (Honoured.start partitionMetadata defaultPartitions) (permits_of_append leftPermits)
    (permits_of_append rightPermits)
  have own : ∀ name, namesOf other name connection = id := fun _ => if_neg another
  have same : names.command connection command = command := by
    change renameCommand (namesOf other producerName connection)
      (namesOf other consumerName connection) command = command
    rw [own, own, rename_command_id]
  have matched := handle_command_matched reached.1 reached.2 leftLast (same.symm ▸ rightLast)
  rw [same] at matched
  exact matched.1

def sampleNeighbours (consumerId : Nat) : List Step :=
  [onCnx 1 (.connect 20), onCnx 2 (.connect 20), onCnx 2 (sampleSubscribe ['a'] consumerId)]

theorem sample_neighbours_permitted (another : consumerId ≠ 5) : Run.Permits step Apart sampleBroker
      (sampleNeighbours consumerId ++ [onCnx 1 (sampleSubscribe ['a'] 5)]) := by
  refine ⟨trivial, trivial, ?_, ?_, trivial⟩
  · intro handle _ person listed
    exact absurd listed not_mem_nil
  intro handle _ person listed
  cases handle with
  | zero =>
    have only : (5, person) ∈ [(consumerId, 2)] := listed
    rw [mem_singleton, Prod.mk.injEq] at only
    exact absurd only.1.symm another
  | succ handle => exact absurd listed not_mem_nil

theorem sample_isolated :
    (((sampleNeighbours 6).foldl Registry.step sampleBroker).handleCommand 1
        (sampleSubscribe ['a'] 5) (.ok ())).1.isOk =
      (((sampleNeighbours 7).foldl Registry.step sampleBroker).handleCommand 1
        (sampleSubscribe ['a'] 5) (.ok ())).1.isOk ∧
    ((sampleNeighbours 6).foldl Registry.step sampleBroker).listing.consumers.Lists 0 6 2 ∧
    (((sampleNeighbours 6).foldl Registry.step sampleBroker).step
      (onCnx 1 (sampleSubscribe ['a'] 5))).listing.consumers.Lists 0 6 2 := by
  have permitted : Run.Permits step Apart sampleBroker
      (sampleNeighbours 6 ++ [onCnx 1 (sampleSubscribe ['a'] 5)]) :=
    sample_neighbours_permitted (by decide)
  have other : Run.Permits step Apart sampleBroker
      (sampleNeighbours 7 ++ [onCnx 1 (sampleSubscribe ['a'] 5)]) :=
    sample_neighbours_permitted (by decide)
  have renumbered : Run.Permits step Apart (start (fun _ => none) 0)
      (renumber 2 (· + 1) (· + 1) (sampleNeighbours 6) ++
        [onCnx 1 (sampleSubscribe ['a'] 5)]) := other
  have isolated := isolated_when_apart (fun _ => none) 0
  have listed : ((sampleNeighbours 6).foldl step
      sampleBroker).listing.consumers.Lists 0 6 2 := mem_singleton.mpr rfl
  refine ⟨?_, listed, ?_⟩
  · exact isolated.2 (· + 1) (· + 1) (sampleNeighbours 6) 1 2 (sampleSubscribe ['a'] 5) (.ok ())
      (add_left_injective 1) (add_left_injective 1) (by decide) permitted renumbered
  · refine (isolated.1 _ (onCnx 1 (sampleSubscribe ['a'] 5)) 2
      (of_permits (permits_of_append permitted)) ?_ (by decide)).2 0 6 listed
    exact permits_iff.mp permitted (sampleNeighbours 6) _ [] rfl

/-- The second connection registers a producer under the number of the first one, whose
producer is gone then; and its consumer turns that of the first one away. -/
theorem numbers_collide :
    (∃ registry next, Run .step (fun _ _ => True) sampleBroker registry ∧
      next.connection = 2 ∧
      registry.listing.producers.Lists (.nonPartitioned "persistent://public/default/orders".toList)
        1 1 ∧
      ¬(registry.step next).listing.producers.Lists
        (.nonPartitioned "persistent://public/default/orders".toList) 1 1) ∧
    (((sampleNeighbours 5).foldl .step sampleBroker).handleCommand 1
      (sampleSubscribe ['a'] 5) (.ok ())).1.isOk = false ∧
    (((sampleNeighbours 6).foldl .step sampleBroker).handleCommand 1
      (sampleSubscribe ['a'] 5) (.ok ())).1.isOk = true := by
  refine ⟨⟨_, onCnx 2 (sampleProducer 1), .of_list step sampleBroker
    [onCnx 1 (.connect 20), onCnx 2 (.connect 20), onCnx 1 (sampleProducer 1)], rfl, ?_, ?_⟩,
    by decide, by decide⟩
  · unfold Roll.Lists
    decide
  · unfold Roll.Lists
    decide

end PulsarLite.Broker.Registry
