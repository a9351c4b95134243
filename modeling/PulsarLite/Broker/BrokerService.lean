import Mathlib.Logic.Function.Basic
import PulsarLite.Broker.Subscription

/-!
# Topics and subscriptions as connections register with them

The broker finds or creates the topic of a name; a topic lists producers, and a
subscription lists consumers, by the number that the client chose. Beside each
number stands the connection that registered it. Topics are never removed; a
subscription may be, and one created later under its name is another one.
-/

namespace PulsarLite.Broker

open Library Storage

/-- `rsplit_once`: the text before and after the last occurrence of `pattern`. -/
def rsplitOnce (pattern : Text) : Text → Option (Text × Text)
  | [] => if pattern.isEmpty then some ([], []) else none
  | char :: rest =>
    match rsplitOnce pattern rest with
    | some (before, after) => some (char :: before, after)
    | none =>
      if pattern.isPrefixOf (char :: rest) then
        some ([], (char :: rest).drop pattern.length)
      else none

/-- `parse::<usize>`: digits, with or without a plus sign before them. -/
def parseUsize (text : Text) : Option Nat :=
  let digits :=
    match text with
    | '+' :: digits => digits
    | digits => digits
  if digits.isEmpty || !digits.all Char.isDigit then none
  else
    let value := digits.foldl (fun value digit => value * 10 + (digit.toNat - '0'.toNat)) 0
    if value < 2 ^ 64 then some value else none

def partitionSeparator : Text := "-partition-".toList

def getPartitionIndex (partitionName : Text) : Option Nat :=
  (rsplitOnce partitionSeparator partitionName).bind fun parts => parseUsize parts.2

def getBaseTopicName (partitionName : Text) : Option Text :=
  (rsplitOnce partitionSeparator partitionName).bind fun parts =>
    (parseUsize parts.2).map fun _ => parts.1

inductive TopicRuntimeMode
  | persistent
  | nonPersistent
deriving DecidableEq

/-- The domain of a name that `parse_topic_name` accepts. -/
def topicDomain (name : Text) : Option Text :=
  match Keys.splitOnce "://".toList name with
  | none => none
  | some (domain, rest) =>
    if domain ≠ "persistent".toList ∧ domain ≠ "non-persistent".toList then none
    else
      match Keys.splitOnce ['/'] rest with
      | none => none
      | some (tenant, rest) =>
        match Keys.splitOnce ['/'] rest with
        | none => none
        | some (namespaceName, localName) =>
          if tenant.isEmpty || namespaceName.isEmpty || localName.isEmpty then none
          else some domain

def runtimeModeFromTopicName (name : Text) : TopicRuntimeMode :=
  if topicDomain name = some "non-persistent".toList then .nonPersistent else .persistent

example : getPartitionIndex "persistent://a/b/c-partition-12".toList = some 12 ∧
    getBaseTopicName "t-partition-3".toList = some "t".toList ∧
    runtimeModeFromTopicName "non-persistent://a/b/c".toList = .nonPersistent := by decide

/-- A topic on its own, or one of the partitions of a topic. -/
inductive TopicKey
  | nonPartitioned (name : Text)
  | partition (baseName : Text) (index : Nat)
deriving DecidableEq

def TopicKey.name : TopicKey → Text
  | nonPartitioned name => name
  | partition baseName index => baseName ++ partitionSeparator ++ Nat.toDigits 10 index

structure Topic where
  producers : OrderedMap Nat Nat
  subscriptions : Text → Option Nat

namespace Topic

def new : Topic where
  producers := .empty
  subscriptions := fun _ => none

def addProducer (producerId connection : Nat) (topic : Topic) : Topic :=
  { topic with producers := topic.producers.insert producerId connection }

def removeProducer (producerId : Nat) (topic : Topic) : Topic :=
  { topic with producers := topic.producers.erase producerId }

def removeSubscription (name : Text) (topic : Topic) : Topic :=
  { topic with subscriptions := Function.update topic.subscriptions name none }

end Topic

inductive TopicRef
  | concrete (topic : TopicKey)
  | partitioned

/-- The topics known by name, the partition counts, and the topics themselves; one
that is not known yet is as it will be created. -/
@[ext] structure BrokerService where
  topics : List Text
  partitionedTopics : Text → Option Nat
  partitionMetadata : Text → Option Nat
  defaultPartitions : Nat
  topicAt : TopicKey → Topic

namespace BrokerService

/-- The broker as it starts, with the partition counts that were stored. -/
def withConfig (partitionMetadata : Text → Option Nat) (defaultPartitions : Nat) :
    BrokerService where
  topics := []
  partitionedTopics := fun _ => none
  partitionMetadata := partitionMetadata
  defaultPartitions := defaultPartitions
  topicAt := fun _ => .new

def modifyTopic (key : TopicKey) (change : Topic → Topic) (broker : BrokerService) :
    BrokerService :=
  { broker with topicAt := Function.update broker.topicAt key (change (broker.topicAt key)) }

variable (name : Text) (broker : BrokerService)

def getOrCreateTopic : TopicKey × BrokerService :=
  (.nonPartitioned name,
    if name ∈ broker.topics then broker else { broker with topics := name :: broker.topics })

def getTopic : Option TopicKey :=
  if name ∈ broker.topics then some (.nonPartitioned name) else none

/-- The number of partitions, of the topic that exists or of the one that is created. -/
def getOrCreatePartitionedTopic (name : Text) (partitionCount : Nat) (broker : BrokerService) :
    Nat × BrokerService :=
  match broker.partitionedTopics name with
  | some existing => (existing, broker)
  | none => (partitionCount, { broker with
      partitionedTopics := Function.update broker.partitionedTopics name (some partitionCount)
      partitionMetadata := Function.update broker.partitionMetadata name (some partitionCount) })

def shouldBePartitioned : Bool :=
  (broker.partitionMetadata name).isSome || (broker.partitionedTopics name).isSome ||
    decide (0 < broker.defaultPartitions)

def partitionCountOf : Nat :=
  (broker.partitionMetadata name).getD broker.defaultPartitions

/-- The partition that a name is for. The topic of the partitions is created even if
there is no such partition. -/
def getPartition : Option TopicKey × BrokerService :=
  match getBaseTopicName name, getPartitionIndex name with
  | some baseName, some index =>
    if 0 < broker.partitionCountOf baseName then
      let made := broker.getOrCreatePartitionedTopic baseName (broker.partitionCountOf baseName)
      (if index < made.1 then some (.partition baseName index) else none, made.2)
    else (none, broker)
  | _, _ => (none, broker)

def getOrCreateTopicAuto : TopicRef × BrokerService :=
  match broker.getPartition name with
  | (some key, broker) => (.concrete key, broker)
  | (none, broker) =>
    if broker.shouldBePartitioned name then
      (.partitioned, (broker.getOrCreatePartitionedTopic name (broker.partitionCountOf name)).2)
    else
      let made := broker.getOrCreateTopic name
      (.concrete made.1, made.2)

@[simp] theorem partitioned_topic_at (name partitionCount) (broker : BrokerService) :
    (broker.getOrCreatePartitionedTopic name partitionCount).2.topicAt = broker.topicAt := by
  unfold getOrCreatePartitionedTopic
  cases broker.partitionedTopics name <;> rfl

@[simp] theorem partition_topic_at (name : Text) (broker : BrokerService) :
    (broker.getPartition name).2.topicAt = broker.topicAt := by
  unfold getPartition
  split
  · split_ifs
    · exact partitioned_topic_at _ _ broker
    · rfl
  · rfl

@[simp] theorem auto_topic_at (name : Text) (broker : BrokerService) :
    (broker.getOrCreateTopicAuto name).2.topicAt = broker.topicAt := by
  have found := partition_topic_at name broker
  unfold getOrCreateTopicAuto
  cases located : broker.getPartition name with
  | mk key after =>
    rw [located] at found
    cases key with
    | some key => exact found
    | none =>
      dsimp only
      split_ifs
      · rw [partitioned_topic_at, found]
      · unfold getOrCreateTopic
        split_ifs
        · exact found
        · exact found

end BrokerService

/-- A subscription, as a consumer finds it that wants to join. -/
structure SubscriptionRecord where
  topic : Text
  name : Text
  subType : SubscriptionType
  runtimeMode : TopicRuntimeMode
  keySharedPolicy : Option KeySharedPolicy
  consumers : OrderedMap Nat Nat

namespace SubscriptionRecord

def new (topic name : Text) (subType : SubscriptionType)
    (keySharedPolicy : Option KeySharedPolicy) :
    SubscriptionRecord where
  topic := topic
  name := name
  subType := subType
  runtimeMode := runtimeModeFromTopicName topic
  keySharedPolicy := keySharedPolicy
  consumers := .empty

variable (record : SubscriptionRecord)

def isConsumerConnected : Bool := !record.consumers.bindings.isEmpty

variable (policy : Option KeySharedPolicy)

/-- `has_same_key_shared_policy` of the two dispatchers with sticky keys, which compare
the modes. -/
def hasSameMode : Bool :=
  let mode := (record.keySharedPolicy.map KeySharedPolicy.mode).getD .autoSplit
  match policy with
  | none => decide (mode = .autoSplit)
  | some policy => decide (policy.mode = mode)

/-- The other non-persistent dispatchers want no policy at all. -/
def hasSameKeySharedPolicy : Bool :=
  match record.subType with
  | .keyShared => record.hasSameMode policy
  | .exclusive | .shared | .failover => policy.isNone

variable (consumerId : Nat) (dispatcherName : String)

def refuseKnown : Except String Unit :=
  if consumerId ∈ record.consumers then
    .error ("Consumer " ++ toString consumerId ++ " already exists" ++ dispatcherName)
  else .ok ()

/-- The number is looked at first, then the policy. -/
def admitSticky (policy : Option KeySharedPolicy) : Except String Unit :=
  match record.refuseKnown consumerId dispatcherName with
  | .error message => .error message
  | .ok _ =>
    if record.hasSameMode policy then .ok ()
    else .error "Consumer key shared policy is incompatible with the dispatcher"

variable (policy : Option KeySharedPolicy)

/-- `add_consumer` of the persistent dispatchers: who is turned away. -/
def admitPersistent : Except String Unit :=
  match record.subType with
  | .exclusive =>
    if record.isConsumerConnected then .error "Exclusive subscription already has a consumer"
    else .ok ()
  | .shared | .failover => record.refuseKnown consumerId ""
  | .keyShared => record.admitSticky consumerId " in key-shared dispatcher" policy

/-- `add_consumer` of the non-persistent runtime and its dispatchers. -/
def admitNonPersistent : Except String Unit :=
  if record.isConsumerConnected && !record.hasSameKeySharedPolicy policy then
    .error "Consumer is incompatible with the current dispatcher"
  else
    match record.subType with
    | .exclusive =>
      if record.isConsumerConnected then
        .error "Non-persistent Exclusive subscription already has an active consumer"
      else .ok ()
    | .shared => record.refuseKnown consumerId " in non-persistent shared dispatcher"
    | .failover => record.refuseKnown consumerId " in non-persistent failover dispatcher"
    | .keyShared => record.admitSticky consumerId " in non-persistent key-shared dispatcher" policy

def admission : Except String Unit :=
  match record.runtimeMode with
  | .persistent => record.admitPersistent consumerId policy
  | .nonPersistent => record.admitNonPersistent consumerId policy

def addConsumer (consumerId connection : Nat) (policy : Option KeySharedPolicy)
    (record : SubscriptionRecord) : Except String SubscriptionRecord :=
  (record.admission consumerId policy).map fun _ =>
    { record with consumers := record.consumers.insert consumerId connection }

def removeConsumer (consumerId : Nat) (record : SubscriptionRecord) : SubscriptionRecord :=
  { record with consumers := record.consumers.erase consumerId }

/-- There is room for the number: an exclusive subscription has nobody, any other has
nobody with this number. -/
def Vacant (record : SubscriptionRecord) (consumerId : Nat) : Prop :=
  match record.subType with
  | .exclusive => record.isConsumerConnected = false
  | .shared | .failover | .keyShared => consumerId ∉ record.consumers

variable {record : SubscriptionRecord} {consumerId : Nat} {policy : Option KeySharedPolicy}

theorem refuse_known_ok {dispatcherName : String} :
    record.refuseKnown consumerId dispatcherName = .ok () ↔ consumerId ∉ record.consumers := by
  unfold refuseKnown
  split_ifs with known
  · simp [known]
  · simp [known]

theorem admit_sticky_ok {dispatcherName : String} :
    record.admitSticky consumerId dispatcherName policy = .ok () ↔
      consumerId ∉ record.consumers ∧ record.hasSameMode policy := by
  have refused : record.refuseKnown consumerId dispatcherName = .ok () ↔
      consumerId ∉ record.consumers := refuse_known_ok
  unfold admitSticky
  rw [← refused]
  cases record.refuseKnown consumerId dispatcherName with
  | error message => simp
  | ok _ => cases record.hasSameMode policy <;> simp

theorem admit_persistent_ok : record.admitPersistent consumerId policy = .ok () ↔
    record.Vacant consumerId ∧ (record.subType = .keyShared → record.hasSameMode policy) := by
  unfold admitPersistent Vacant
  cases record.subType with
  | exclusive => cases record.isConsumerConnected <;> simp
  | shared | failover => simp [refuse_known_ok]
  | keyShared => simp [admit_sticky_ok]

theorem admit_non_persistent_ok : record.admitNonPersistent consumerId policy = .ok () ↔
    (record.isConsumerConnected → record.hasSameKeySharedPolicy policy) ∧
      record.Vacant consumerId ∧ (record.subType = .keyShared → record.hasSameMode policy) := by
  unfold admitNonPersistent Vacant
  by_cases refused : record.isConsumerConnected && !record.hasSameKeySharedPolicy policy
  · rw [if_pos refused]
    simp only [Bool.and_eq_true, Bool.not_eq_true'] at refused
    simp [refused.1, refused.2]
  have compatible : record.isConsumerConnected → record.hasSameKeySharedPolicy policy := by
    simpa using refused
  rw [if_neg refused, and_iff_right compatible]
  cases record.subType with
  | exclusive => cases record.isConsumerConnected <;> simp
  | shared | failover => simp [refuse_known_ok]
  | keyShared => simp [admit_sticky_ok]

theorem admit_ok_congr {other : SubscriptionRecord} {otherId : Nat}
    (sameType : record.subType = other.subType) (sameMode : record.runtimeMode = other.runtimeMode)
    (samePolicy : record.keySharedPolicy = other.keySharedPolicy)
    (connected : record.isConsumerConnected = other.isConsumerConnected)
    (known : consumerId ∈ record.consumers ↔ otherId ∈ other.consumers) :
    record.admission consumerId policy = .ok () ↔ other.admission otherId policy = .ok () := by
  have modes : record.hasSameMode policy = other.hasSameMode policy := by
    simp only [hasSameMode, samePolicy]
  have policies : record.hasSameKeySharedPolicy policy = other.hasSameKeySharedPolicy policy := by
    simp only [hasSameKeySharedPolicy, sameType, modes]
  have vacant : record.Vacant consumerId ↔ other.Vacant otherId := by
    simp only [Vacant, sameType, connected, known]
  unfold admission
  rw [sameMode]
  cases other.runtimeMode with
  | persistent =>
    rw [admit_persistent_ok, admit_persistent_ok, vacant, sameType, modes]
  | nonPersistent =>
    rw [admit_non_persistent_ok, admit_non_persistent_ok, vacant, sameType, modes, connected,
      policies]

theorem not_mem_of_admitted (admitted : record.admission consumerId policy = .ok ()) :
    consumerId ∉ record.consumers := by
  have vacant : record.Vacant consumerId := by
    unfold admission at admitted
    cases mode : record.runtimeMode with
    | persistent =>
      rw [mode] at admitted
      exact (admit_persistent_ok.mp admitted).1
    | nonPersistent =>
      rw [mode] at admitted
      exact (admit_non_persistent_ok.mp admitted).2.1
  unfold Vacant at vacant
  cases type : record.subType with
  | exclusive =>
    rw [type] at vacant
    have empty : record.consumers.bindings = [] := by
      simpa [isConsumerConnected] using vacant
    intro known
    obtain ⟨owner, member⟩ := OrderedMap.mem_iff.mp known
    rw [empty] at member
    exact List.not_mem_nil member
  | shared | failover | keyShared =>
    rw [type] at vacant
    exact vacant

end SubscriptionRecord

end PulsarLite.Broker
