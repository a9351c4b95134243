import PulsarLite.Broker.Subscription
import PulsarLite.Library.Runs

/-!
# What requests do to a subscription with many consumers

Requests other than dispatch passes are reduced to a few changes of what the
Shared and the KeyShared dispatcher have in common. An invariant is checked
against these changes and against passes, and then holds along every run.
-/

namespace PulsarLite.Broker

open Library Storage DispatcherEnum List MultipleConsumers OrderedMap Option Subscription

variable {consumers : OrderedMap Nat Consumer} {ackType : AckCommandType} {slots : ChannelSlots}
  {messageIds : List MessageId} {walk : List Nat} {messageId : MessageId}
  {change : MultipleConsumers → MultipleConsumers} {consumerId : Nat}

theorem SharedDispatcher.remove_order_common (dispatcher : SharedDispatcher) (consumerId : Nat) :
    ((dispatcher.removeConsumerOrder consumerId).modify change).toMultipleConsumers =
      change dispatcher.toMultipleConsumers := by
  unfold SharedDispatcher.removeConsumerOrder
  split <;> rfl

/-- If nobody comes or goes, the turns of a Shared dispatcher are left as they are. -/
inductive SharedDispatcher.Reseats (before : SharedDispatcher) :
    (rebuilt : Bool) → SharedDispatcher → Prop
  | stays {after : SharedDispatcher} (order : after.consumerOrder = before.consumerOrder) :
      Reseats before false after
  | joins {consumerId : Nat} {consumer : Consumer} {after : SharedDispatcher}
      (added : before.addConsumer consumerId consumer = some after) : Reseats before true after
  | leaves (consumerId : Nat) : Reseats before true (before.removeConsumerWithRecovery consumerId)

def KeySharedDispatcher.settle (dispatcher : KeySharedDispatcher) (rebuilt : Bool)
    (common : MultipleConsumers) : KeySharedDispatcher :=
  let after := dispatcher.modify fun _ => common
  if rebuilt then after.rebuildAssignments else after

namespace DispatcherEnum

variable {joined : DispatcherEnum}

@[simp] theorem init_read_position_type (position) (dispatcher : DispatcherEnum) :
    (dispatcher.initReadPosition position).getType = dispatcher.getType := by
  cases dispatcher <;> rfl

@[simp] theorem new_type (subType keySharedPolicy) :
    (newWithKeySharedPolicy subType keySharedPolicy).getType = subType := by
  cases subType <;> rfl

theorem add_consumer_type {consumer : Consumer} {dispatcher : DispatcherEnum}
    (added : dispatcher.addConsumer consumerId consumer = some joined) :
    joined.getType = dispatcher.getType := by
  cases dispatcher <;> obtain ⟨_, _, rfl⟩ := map_eq_some_iff.mp added <;> rfl

@[simp] theorem remove_consumer_type (reader consumerId) (dispatcher : DispatcherEnum) :
    (dispatcher.removeConsumerWithRecovery reader consumerId).getType = dispatcher.getType := by
  cases dispatcher <;> rfl

@[simp] theorem dispatch_messages_type (context slots delivered) (dispatcher : DispatcherEnum) :
    (dispatcher.dispatchMessages context slots delivered).2.1.getType = dispatcher.getType := by
  cases dispatcher <;> rfl

def multiple : DispatcherEnum → Option MultipleConsumers
  | shared dispatcher => some dispatcher.toMultipleConsumers
  | keyShared dispatcher => some dispatcher.toMultipleConsumers
  | exclusive _ => none
  | failover _ => none

def modify (change : MultipleConsumers → MultipleConsumers) : DispatcherEnum → DispatcherEnum
  | shared dispatcher => shared (dispatcher.modify change)
  | keyShared dispatcher => keyShared (dispatcher.modify change)
  | exclusive dispatcher => exclusive dispatcher
  | failover dispatcher => failover dispatcher

variable {dispatcher : DispatcherEnum} {common : MultipleConsumers}

@[simp] theorem modify_type (change : MultipleConsumers → MultipleConsumers) :
    (dispatcher.modify change).getType = dispatcher.getType := by
  cases dispatcher <;> rfl

theorem modify_multiple (isCommon : dispatcher.multiple = some common)
    (change : MultipleConsumers → MultipleConsumers) :
    (dispatcher.modify change).multiple = some (change common) := by
  cases dispatcher with
  | shared | keyShared => cases isCommon; rfl
  | exclusive | failover => cases isCommon

theorem modify_modify (first second : MultipleConsumers → MultipleConsumers) :
    (dispatcher.modify first).modify second = dispatcher.modify fun common =>
      second (first common) := by
  cases dispatcher <;> rfl

section

variable (isCommon : dispatcher.multiple = some common)
include isCommon

theorem multiple_consumers : dispatcher.consumers = common.consumers := by
  cases dispatcher with
  | shared | keyShared => cases isCommon; rfl
  | exclusive | failover => cases isCommon

theorem put_consumer_eq (consumerId consumer) : dispatcher.putConsumer consumerId consumer =
      dispatcher.modify fun common => common.putConsumer consumerId consumer := by
  cases dispatcher with
  | shared | keyShared => rfl
  | exclusive | failover => cases isCommon

theorem consumer_flow_eq (consumerId consumer permits) :
    (dispatcher.putConsumer consumerId consumer).consumerFlow consumerId permits =
      dispatcher.modify fun common =>
        (common.putConsumer consumerId consumer).addTotalPermits permits := by
  cases dispatcher with
  | shared => rfl
  | keyShared dispatcher =>
    have member : consumerId ∈ dispatcher.consumers.insert consumerId consumer :=
      mem_insert.mpr (.inl rfl)
    exact congrArg keyShared (if_pos member)
  | exclusive | failover => cases isCommon

end

theorem redeliver_messages_eq (entries) : dispatcher.redeliverMessages entries =
      dispatcher.modify fun common => common.addRedeliveryEntries entries := by
  cases dispatcher <;> rfl

theorem acknowledge_each_eq (tracked : List MessageId) :
    tracked.foldl (fun dispatcher messageId => dispatcher.onMessageAcknowledged messageId)
      dispatcher = dispatcher.modify fun common => { common with
        redeliveryController := common.redeliveryController.sweep tracked } := by
  induction tracked generalizing dispatcher with
  | nil => cases dispatcher <;> rfl
  | cons messageId tracked ih =>
    rw [foldl_cons, ih]
    cases dispatcher <;> rfl

/-- What a dispatcher does when messages were acknowledged: they leave the queue, as
do others that are acknowledged by now. -/
theorem acknowledged_eq (isCommon : dispatcher.multiple = some common) {reader firstUnacked}
    (first : reader.firstUnackedPosition = .ok firstUnacked) (tracked : List MessageId) :
    ∃ dropped, (∀ messageId ∈ dropped, messageId ∈ tracked ∨
        reader.isAcknowledged messageId = true) ∧ (∀ messageId ∈ tracked, messageId ∈ dropped) ∧
      ((tracked.foldl (fun dispatcher messageId => dispatcher.onMessageAcknowledged messageId)
        dispatcher).onAckStateUpdated reader).2 = dispatcher.modify fun common => { common with
          redeliveryController := common.redeliveryController.sweep dropped
          readPosition := readPositionAfterAck common.readPosition
            firstUnacked } := by
  let acked := (common.redeliveryController.sweep tracked).queuedMessageIds.filter
    reader.isAcknowledged
  refine ⟨tracked ++ acked, ?_, fun _ member => mem_append_left _ member, ?_⟩
  · intro messageId member
    rcases mem_append.mp member with isTracked | isAcked
    · exact .inl isTracked
    · exact .inr (mem_filter.mp isAcked).2
  have split : common.redeliveryController.sweep (tracked ++ acked) =
      (common.redeliveryController.sweep tracked).sweep acked := foldl_append
  rw [acknowledge_each_eq]
  cases dispatcher with
  | shared => cases isCommon; simp only [modify, SharedDispatcher.modify, onAckStateUpdated,
      MultipleConsumers.onAckStateUpdated, first, split]; rfl
  | keyShared => cases isCommon; simp only [modify, KeySharedDispatcher.modify, onAckStateUpdated,
      MultipleConsumers.onAckStateUpdated, first, split]; rfl
  | exclusive | failover => cases isCommon

/-- What is left when a consumer has gone: its pending messages are queued. -/
def Left (common : MultipleConsumers) (consumerId : Nat) (consumer : Consumer)
    (entries : List RedeliveryEntry) : MultipleConsumers :=
  ({ common with consumers := common.consumers.erase consumerId }.subtractTotalPermits
    consumer.availablePermitsNow).addRedeliveryEntries entries

/-- The common part is replaced, and the hashes or the turns may be shared out anew. -/
structure Replaces (dispatcher : DispatcherEnum) (rebuilt : Bool) (common : MultipleConsumers)
    (after : DispatcherEnum) : Prop where
  multiple : after.multiple = some common
  settled : ∀ before, dispatcher = .keyShared before →
    after = .keyShared (before.settle rebuilt common)
  seated : ∀ before, dispatcher = .shared before →
    ∃ shared, after = .shared shared ∧ before.Reseats rebuilt shared

section

variable (isCommon : dispatcher.multiple = some common)
include isCommon

theorem modify_replaces (change : MultipleConsumers → MultipleConsumers) :
    dispatcher.Replaces false (change common) (dispatcher.modify change) := by
  refine ⟨modify_multiple isCommon change, ?_, ?_⟩
  all_goals
    rintro before rfl
    cases isCommon
  · rfl
  · exact ⟨_, rfl, .stays rfl⟩

theorem add_consumer_replaces {consumer : Consumer}
    (added : dispatcher.addConsumer consumerId consumer = some joined) :
    consumerId ∉ common.consumers ∧
      dispatcher.Replaces true (common.putConsumer consumerId consumer) joined := by
  cases dispatcher with
  | exclusive | failover => cases isCommon
  | shared dispatcher =>
    cases isCommon
    obtain ⟨after, isAfter, rfl⟩ := map_eq_some_iff.mp added
    have joins := isAfter
    unfold SharedDispatcher.addConsumer at isAfter
    split_ifs at isAfter with known
    cases isAfter
    refine ⟨known, rfl, nofun, ?_⟩
    rintro before ⟨⟩
    exact ⟨_, rfl, .joins joins⟩
  | keyShared dispatcher =>
    cases isCommon
    obtain ⟨after, isAfter, rfl⟩ := map_eq_some_iff.mp added
    unfold KeySharedDispatcher.addConsumer at isAfter
    split_ifs at isAfter with known
    cases isAfter
    refine ⟨known, rfl, ?_, nofun⟩
    rintro before ⟨⟩
    rfl

theorem remove_consumer_replaces (reader : SubscriptionReader) (consumerId : Nat) :
    dispatcher.Replaces true common (dispatcher.removeConsumerWithRecovery reader consumerId) ∨
      ∃ consumer entries, (consumerId, consumer) ∈ common.consumers.bindings ∧
        entries.map Prod.fst = consumer.pendingAcks.keys ∧
        (dispatcher.getType = .keyShared →
          entries = consumer.pendingAcks.bindings.map redeliveryOf) ∧
        dispatcher.Replaces true (Left common consumerId consumer entries)
          (dispatcher.removeConsumerWithRecovery reader consumerId) := by
  cases dispatcher with
  | exclusive | failover => cases isCommon
  | shared dispatcher =>
    cases isCommon
    have leaves : dispatcher.Reseats true _ := .leaves consumerId
    cases found : dispatcher.consumers.find consumerId with
    | none =>
      simp only [removeConsumerWithRecovery, SharedDispatcher.removeConsumerWithRecovery, found]
        at leaves ⊢
      refine .inl ⟨rfl, nofun, ?_⟩
      rintro before ⟨⟩
      exact ⟨_, rfl, leaves⟩
    | some consumer =>
      simp only [removeConsumerWithRecovery, SharedDispatcher.removeConsumerWithRecovery, found]
        at leaves ⊢
      refine .inr ⟨consumer, _, find_eq_some.mp found, ?_, nofun,
        congrArg some (SharedDispatcher.remove_order_common _ _), nofun, ?_⟩
      · rw [List.map_map, List.map_map]
        rfl
      · rintro before ⟨⟩
        exact ⟨_, rfl, leaves⟩
  | keyShared dispatcher =>
    cases isCommon
    simp only [removeConsumerWithRecovery, KeySharedDispatcher.removeConsumerWithRecovery]
    split
    next =>
      refine .inl ⟨rfl, ?_, nofun⟩
      rintro before ⟨⟩
      rfl
    next consumer found =>
      refine .inr ⟨consumer, _, find_eq_some.mp found, ?_, fun _ => rfl, rfl, ?_, nofun⟩
      · rw [List.map_map]
        rfl
      · rintro before ⟨⟩
        rfl

end

end DispatcherEnum

/-- Consumers give messages up, and only those that are tracked; their ids, and
whether they are closed, stay. -/
structure Thinned (tracked : List MessageId) (before after : OrderedMap Nat Consumer) : Prop where
  keys : after.keys = before.keys
  fewer : ∀ consumer ∈ after.bindings, ∃ old, (consumer.1, old) ∈ before.bindings ∧
    consumer.2.closed = old.closed ∧
    ∀ pending ∈ consumer.2.pendingAcks.bindings, pending ∈ old.pendingAcks.bindings
  kept : ∀ old ∈ before.bindings, ∃ consumer, (old.1, consumer) ∈ after.bindings ∧
    ∀ pending ∈ old.2.pendingAcks.bindings, pending.1 ∉ tracked →
      pending ∈ consumer.pendingAcks.bindings

/-- The permits and the priority of a consumer. -/
def standing (consumer : Nat × Consumer) : Nat × Int × Int :=
  (consumer.1, consumer.2.availablePermits, consumer.2.priorityLevel)

def standings (consumers : OrderedMap Nat Consumer) : List (Nat × Int × Int) :=
  consumers.bindings.map standing

theorem standings_put {consumer after : Consumer}
    (member : (consumerId, consumer) ∈ consumers.bindings)
    (same : standing (consumerId, after) = standing (consumerId, consumer)) :
    standings (consumers.insert consumerId after) = standings consumers :=
  map_bindings_insert member same

theorem exists_standing {after : OrderedMap Nat Consumer}
    (same : standings after = standings consumers) {consumer} (member : consumer ∈ after.bindings) :
    ∃ old ∈ consumers.bindings, standing old = standing consumer := by
  rw [standings, standings] at same
  exact mem_map.mp (same ▸ mem_map_of_mem member)

namespace Thinned

variable {tracked more : List MessageId} {before after last : OrderedMap Nat Consumer}

theorem refl (consumers) : Thinned [] consumers consumers where
  keys := rfl
  fewer consumer member := ⟨consumer.2, member, rfl, fun _ pending => pending⟩
  kept old member := ⟨old.2, member, fun _ pending _ => pending⟩

theorem trans (first : Thinned tracked before after) (second : Thinned more after last) :
    Thinned (tracked ++ more) before last := by
  constructor
  · exact second.keys.trans first.keys
  · intro consumer member
    obtain ⟨middle, inMiddle, sameMiddle, fewerMiddle⟩ := second.fewer consumer member
    obtain ⟨old, inOld, sameOld, fewerOld⟩ := first.fewer _ inMiddle
    exact ⟨old, inOld, sameMiddle.trans sameOld,
      fun pending isPending => fewerOld pending (fewerMiddle pending isPending)⟩
  intro old member
  obtain ⟨middle, inMiddle, keptMiddle⟩ := first.kept old member
  obtain ⟨consumer, inLast, keptLast⟩ := second.kept _ inMiddle
  refine ⟨consumer, inLast, ?_⟩
  intro pending isPending untracked
  rw [mem_append, not_or] at untracked
  exact keptLast pending (keptMiddle pending isPending untracked.1) untracked.2

theorem put {old consumer : Consumer} (member : (consumerId, old) ∈ before.bindings)
    (sameClosed : consumer.closed = old.closed)
    (fewer : ∀ pending ∈ consumer.pendingAcks.bindings, pending ∈ old.pendingAcks.bindings)
    (kept : ∀ pending ∈ old.pendingAcks.bindings, pending.1 ∉ tracked →
      pending ∈ consumer.pendingAcks.bindings) :
    Thinned tracked before (before.insert consumerId consumer) := by
  constructor
  · exact keys_insert (mem_of_binding member)
  · intro other isOther
    rcases mem_bindings_insert.mp isOther with rfl | ⟨_, unchanged⟩
    · exact ⟨old, member, sameClosed, fewer⟩
    · exact ⟨other.2, unchanged, rfl, fun _ pending => pending⟩
  intro other isOther
  by_cases same : other.1 = consumerId
  · have isOld : other = (consumerId, old) := value_unique isOther member same
    subst isOld
    exact ⟨consumer, mem_bindings_insert.mpr (.inl rfl), kept⟩
  · exact ⟨other.2, mem_bindings_insert.mpr (.inr ⟨same, isOther⟩), fun _ pending _ => pending⟩

variable (thinned : Thinned tracked before after)
include thinned

theorem each {fits : Nat → MessageId × PendingAck → Prop} (each : EachPending before fits) :
    EachPending after fits := by
  intro consumer member pending isPending
  obtain ⟨old, isOld, _, fewer⟩ := thinned.fewer consumer member
  exact each _ isOld pending (fewer pending isPending)

theorem closed (allOpen : ∀ consumer ∈ before.bindings, consumer.2.closed = false) :
    ∀ consumer ∈ after.bindings, consumer.2.closed = false := by
  intro consumer member
  obtain ⟨old, isOld, same, _⟩ := thinned.fewer consumer member
  exact same.trans (allOpen _ isOld)

theorem held (held : Held after messageId) : Held before messageId := by
  obtain ⟨consumer, member, isPending⟩ := held
  obtain ⟨old, isOld, _, fewer⟩ := thinned.fewer consumer member
  obtain ⟨ack, isAck⟩ := mem_iff.mp isPending
  exact ⟨_, isOld, mem_of_binding (fewer _ isAck)⟩

theorem still_held (held : Held before messageId) : messageId ∈ tracked ∨ Held after messageId := by
  obtain ⟨old, isOld, isPending⟩ := held
  obtain ⟨consumer, member, kept⟩ := thinned.kept old isOld
  obtain ⟨ack, isAck⟩ := mem_iff.mp isPending
  rw [or_iff_not_imp_left]
  exact fun untracked => ⟨_, member, mem_of_binding (kept _ isAck untracked)⟩

end Thinned

namespace Subscription

variable {site : SubscriptionSite} {dispatcher : DispatcherEnum} {common : MultipleConsumers}
  {name topic : Text} {items : List Item} {start : Subscription} {requests : List Request}

theorem held_as_pending {consumer tracked} (held : heldAs consumer messageId = some tracked) :
    tracked ∈ consumer.pendingAcks := by
  unfold heldAs at held
  split_ifs at held with isPending
  · cases held
    exact of_decide_eq_true isPending
  · exact mem_of_find?_eq_some held

theorem resolve_ack_owner_spec {owner tracked}
    (resolved : resolveAckOwner consumers walk consumerId messageId = some (owner, tracked)) :
    ∃ consumer, (owner, consumer) ∈ consumers.bindings ∧ tracked ∈ consumer.pendingAcks := by
  have heldBy other : ((consumers.find other).bind fun consumer =>
      heldAs consumer messageId).map (fun tracked => (other, tracked)) = some (owner, tracked) →
        ∃ consumer, (owner, consumer) ∈ consumers.bindings ∧ tracked ∈ consumer.pendingAcks := by
    intro found
    obtain ⟨found, held, isOwner⟩ := map_eq_some_iff.mp found
    cases isOwner
    obtain ⟨consumer, isConsumer, held⟩ := bind_eq_some_iff.mp held
    exact ⟨consumer, find_eq_some.mp isConsumer, held_as_pending held⟩
  rcases or_eq_some_iff.mp resolved with own | ⟨_, walked⟩
  · exact heldBy consumerId own
  · obtain ⟨other, _, found⟩ := exists_of_findSome?_eq_some walked
    exact heldBy other found

theorem take_acked_spec (walk consumerId messageIds)
    (isCommon : dispatcher.multiple = some common) :
    ∃ consumers, (takeAcked walk consumerId messageIds dispatcher).2 =
        dispatcher.modify (fun common => { common with consumers := consumers }) ∧
      Thinned (takeAcked walk consumerId messageIds dispatcher).1 common.consumers consumers ∧
      standings consumers = standings common.consumers ∧
      ∀ tracked ∈ (takeAcked walk consumerId messageIds dispatcher).1, common.Pends tracked := by
  induction messageIds generalizing dispatcher common with
  | nil =>
    refine ⟨common.consumers, ?_, Thinned.refl _, rfl, by simp [takeAcked]⟩
    cases dispatcher with
    | shared => cases isCommon; rfl
    | keyShared => cases isCommon; rfl
    | exclusive => cases isCommon
    | failover => cases isCommon
  | cons messageId rest ih =>
    simp only [takeAcked, multiple_consumers isCommon]
    cases resolved : resolveAckOwner common.consumers (dispatcher.getConsumers walk) consumerId
        messageId with
    | none => exact ih isCommon
    | some found =>
      obtain ⟨owner, tracked⟩ := found
      obtain ⟨consumer, member, pending⟩ := resolve_ack_owner_spec resolved
      have found := find_eq_some.mpr member
      simp only [found, put_consumer_eq isCommon]
      have thinned : Thinned [tracked] common.consumers
          (common.consumers.insert owner (consumer.removePendingAck tracked)) := by
        apply Thinned.put member
        · rfl
        · intro other isOther
          exact (mem_bindings_erase.mp isOther).2
        · intro other isOther untracked
          exact mem_bindings_erase.mpr ⟨by simpa using untracked, isOther⟩
      obtain ⟨consumers, after, thinner, same, pends⟩ := ih (modify_multiple
        isCommon fun common => common.putConsumer owner (consumer.removePendingAck tracked))
      refine ⟨consumers, ?_, thinned.trans thinner, same.trans (standings_put member rfl), ?_⟩
      · rw [after, modify_modify]
        rfl
      · intro other isOther
        rcases mem_cons.mp isOther with rfl | isOther
        · exact ⟨_, member, pending⟩
        · exact thinned.held (pends other isOther)

theorem message_acked_multiple {subscription}
    (isDispatcher : subscription.dispatcher = some dispatcher)
    (isMultiple : subscription.subType = .shared ∨ subscription.subType = .keyShared) :
    (subscription.messageAcked site consumerId ackType messageIds walk).2 =
      if consumerId ∉ dispatcher.consumers ∨ ackType = .cumulative then subscription
      else
        if (takeAcked walk consumerId messageIds dispatcher).1.isEmpty then { subscription with
          dispatcher := some (takeAcked walk consumerId messageIds dispatcher).2 }
        else (acknowledgeShared site (takeAcked walk consumerId messageIds dispatcher).1
          { subscription with
            dispatcher := some (takeAcked walk consumerId messageIds dispatcher).2 }).2 := by
  unfold messageAcked
  by_cases unknown : consumerId ∉ dispatcher.consumers
  · simp [isDispatcher, unknown]
  by_cases cumulative : ackType = .cumulative
  · rcases isMultiple with isType | isType <;> simp [isDispatcher, unknown, cumulative, isType]
  have individual : ¬ (consumerId ∉ dispatcher.consumers ∨ ackType = .cumulative) :=
    not_or.mpr ⟨unknown, cumulative⟩
  rw [if_neg individual]
  rcases isMultiple with isType | isType <;>
    simp only [isDispatcher, unknown, cumulative, isType, if_false] <;> split_ifs <;> rfl

open ManagedLedgerStore in
theorem ack_each_shared {partition store view} (serves : Serves topic name partition store view)
    (orderly : Orderly topic name store) (messageIds)
    (stored : ∀ messageId ∈ messageIds, ∃ message ∈ view.messages, message.messageId = messageId) :
    ∃ store' after, ackEach (fun messageId => ackMessageShared topic name messageId) messageIds
        store = (.ok (), store') ∧
      Serves topic name partition store' after ∧ Orderly topic name store' ∧ view.Reacked after ∧
      (∀ messageId ∈ messageIds, after.acked messageId.slot) ∧
      (Remembers topic name store → Remembers topic name store' ∧
        ∀ message ∈ view.messages, view.acked message.messageId.slot →
          after.acked message.messageId.slot) := by
  induction messageIds generalizing store view with
  | nil =>
    exact ⟨store, view, rfl, serves, orderly, ⟨rfl, rfl, rfl⟩, by simp,
      fun remembers => ⟨remembers, fun _ _ acked => acked⟩⟩
  | cons messageId rest ih =>
    obtain ⟨message, member, same⟩ := stored messageId mem_cons_self
    obtain ⟨middle, served, reacked, result, spec, monotone⟩ := serves.ack_message_shared member
    rw [same] at served result spec
    obtain ⟨orderlyMiddle, remembersMiddle, isAcked⟩ := spec orderly
    obtain ⟨store', after, done, servedAfter, orderlyAfter, reackedAfter, ackedAfter,
      keeps⟩ := ih served orderlyMiddle (by
        rw [reacked.messages]
        exact fun other isOther => stored other (mem_cons_of_mem _ isOther))
    obtain ⟨remembersAfter, keepsAcked⟩ := keeps remembersMiddle
    refine ⟨store', after, ?_, servedAfter, orderlyAfter, reacked.trans reackedAfter, ?_, ?_⟩
    · rw [ackEach, ← done]
      generalize ackMessageShared topic name messageId store = acked at result
      obtain ⟨answer, next⟩ := acked
      cases result
      rfl
    · intro other isOther
      rcases mem_cons.mp isOther with rfl | isOther
      · rw [← same]
        apply keepsAcked message
        · rw [reacked.messages]
          exact member
        · rw [same]
          exact isAcked
      · exact ackedAfter other isOther
    · intro remembers
      refine ⟨remembersAfter, ?_⟩
      intro other isOther acked
      apply keepsAcked other
      · rw [reacked.messages]
        exact isOther
      · exact monotone remembers other isOther acked

structure Returned (consumer : Consumer) (entries : List RedeliveryEntry) (after : Consumer) :
    Prop where
  closed : after.closed = consumer.closed
  stands : ∀ consumerId, standing (consumerId, after) = standing (consumerId, consumer)
  pending : ∀ entry ∈ entries, ∃ pending ∈ consumer.pendingAcks.bindings,
    entry = redeliveryOf pending
  fewer : ∀ pending ∈ after.pendingAcks.bindings, pending ∈ consumer.pendingAcks.bindings
  kept : ∀ pending ∈ consumer.pendingAcks.bindings, pending.1 ∉ entries.map Prod.fst →
    pending ∈ after.pendingAcks.bindings

theorem Returned.thinned {consumer after entries} (returned : Returned consumer entries after)
    (member : (consumerId, consumer) ∈ consumers.bindings) :
    Thinned (entries.map Prod.fst) consumers (consumers.insert consumerId after) :=
  .put member returned.closed returned.fewer returned.kept

theorem take_pending_acks_spec (messageIds consumer) :
    Returned consumer (takePendingAcks messageIds consumer).1
      (takePendingAcks messageIds consumer).2 := by
  induction messageIds generalizing consumer with
  | nil =>
    exact ⟨rfl, fun _ => rfl, by simp [takePendingAcks], fun _ pending => pending,
      fun _ pending _ => pending⟩
  | cons messageId rest ih =>
    cases found : consumer.pendingAcks.find messageId with
    | none =>
      simp only [takePendingAcks, found]
      exact ih consumer
    | some pending =>
      simp only [takePendingAcks, found]
      have member := find_eq_some.mp found
      obtain ⟨closed, stands, isPending, fewer, kept⟩ := ih (consumer.removePendingAck messageId)
      refine ⟨closed, stands, ?_, ?_, ?_⟩
      · intro entry isEntry
        rcases mem_cons.mp isEntry with rfl | isEntry
        · exact ⟨_, member, rfl⟩
        · obtain ⟨other, isOther, same⟩ := isPending entry isEntry
          exact ⟨other, (mem_bindings_erase.mp isOther).2, same⟩
      · intro other isOther
        exact (mem_bindings_erase.mp (fewer other isOther)).2
      · intro other isOther notTaken
        rw [map_cons, mem_cons, not_or] at notTaken
        exact kept other (mem_bindings_erase.mpr ⟨notTaken.1, isOther⟩) notTaken.2

theorem take_for_redelivery_spec (messageIds consumer) :
    Returned consumer (takeForRedelivery messageIds consumer).1
      (takeForRedelivery messageIds consumer).2 := by
  unfold takeForRedelivery
  split_ifs
  · refine ⟨rfl, fun _ => rfl, ?_, ?_, ?_⟩
    · intro entry member
      obtain ⟨pending, isPending, rfl⟩ := mem_map.mp member
      exact ⟨pending, isPending, rfl⟩
    · exact fun _ absent => absurd absent not_mem_bindings_empty
    · intro pending isPending notTaken
      refine absurd (List.mem_map.mpr ⟨redeliveryOf pending, ?_, rfl⟩) notTaken
      exact List.mem_map_of_mem isPending
  · exact take_pending_acks_spec messageIds consumer

section

open ManagedLedgerStore

/-- What is asked of the requests of a run, beside that they are well formed. -/
structure Conditions where
  /-- Acknowledgements are never taken back. -/
  remembering : Prop
  /-- What is acknowledged, and the deliveries so far. -/
  watch : SubscriptionView → List Delivery → Prop
  joins : DispatcherEnum → Nat → Prop
  leaves : DispatcherEnum → Nat → Prop
  returns : DispatcherEnum → Nat → List MessageId → Prop
  flows : DispatcherEnum → Nat → Nat → Prop

def Conditions.none : Conditions where
  remembering := False
  watch := fun _ _ => True
  joins := fun _ _ => True
  leaves := fun _ _ => True
  returns := fun _ _ _ => True
  flows := fun _ _ _ => True

variable (site) in
def Watched (partition : Int) (conditions : Conditions) (subscription : Subscription) : Prop :=
  ∀ view, Serves site.topic site.name partition subscription.store view →
    conditions.watch view subscription.delivered

variable (site) in
/-- Published messages are of the topic's partition and fit into it, and nobody seeks: the
runs are those without a seek. All else is up to the conditions. -/
def Permitted (partition : Int) (conditions : Conditions) (subscription : Subscription)
    (request : Request) : Prop :=
  (match request with
    | .publish items => Publishable partition items ∧
        Fits site.topic (subscription.store.appendMessages site.topic items)
    | .addConsumer consumerId _ _ _ => conditions.joins subscription.dispatcherToJoin consumerId
    | .flow consumerId permits => ∀ dispatcher ∈ subscription.dispatcher,
        conditions.flows dispatcher consumerId permits
    | .redeliver consumerId messageIds _ => ∀ dispatcher ∈ subscription.dispatcher,
        conditions.returns dispatcher consumerId messageIds
    | .removeConsumer consumerId _ => ∀ dispatcher ∈ subscription.dispatcher,
        conditions.leaves dispatcher consumerId
    | .seek _ _ => False
    | .dispatch _ | .ack _ _ _ _ | .setWritable _ _ => True) ∧
        Watched site partition conditions (subscription.handle site request)

/-- Nothing changes in the permits, or one consumer is given some. -/
def Tuned (conditions : Conditions) (dispatcher : DispatcherEnum) (common : MultipleConsumers)
    (consumers : OrderedMap Nat Consumer) (total : Int) : Prop :=
  standings consumers = standings common.consumers ∧ total = common.totalAvailablePermits ∨
    ∃ consumerId consumer permits, conditions.flows dispatcher consumerId permits ∧
      (consumerId, consumer) ∈ common.consumers.bindings ∧
      consumers = common.consumers.insert consumerId (consumer.addPermits permits) ∧
      total = (common.addTotalPermits permits).totalAvailablePermits

/-- What can happen between two passes, to what is stored and to what dispatchers with many
consumers have in common. The hashes are shared out anew when somebody comes or goes. -/
inductive Change (conditions : Conditions) (dispatcher : DispatcherEnum)
    (delivered : List Delivery) (view : SubscriptionView) (common : MultipleConsumers) :
    (rebuilt : Bool) → SubscriptionView → MultipleConsumers → Prop
  | published {after : SubscriptionView} (grows : view.Grows after) (lined : after.Lined)
      (watch : conditions.watch after delivered) :
      Change conditions dispatcher delivered view common false after common
  | joined {consumerId : Nat} {name : Text} {priority : Int} {policy : Option KeySharedPolicy}
      (permitted : conditions.joins dispatcher consumerId)
      (fresh : consumerId ∉ common.consumers) :
      Change conditions dispatcher delivered view common true view
        (common.putConsumer consumerId (.new name priority policy))
  | tuned {consumers : OrderedMap Nat Consumer} {total : Int}
      (thinned : Thinned [] common.consumers consumers)
      (tuned : Tuned conditions dispatcher common consumers total) :
      Change conditions dispatcher delivered view common false view { common with
        consumers := consumers
        totalAvailablePermits := total }
  | acked {tracked dropped : List MessageId} {consumers : OrderedMap Nat Consumer}
      {after : SubscriptionView} {reader : SubscriptionReader}
      {firstUnacked : Option ManagedLedgerPosition}
      (thinned : Thinned tracked common.consumers consumers)
      (stand : standings consumers = standings common.consumers) (reacked : view.Reacked after)
      (presents : Presents reader after) (first : reader.firstUnackedPosition = .ok firstUnacked)
      (includes : ∀ messageId ∈ tracked, messageId ∈ dropped)
      (acked : ∀ messageId ∈ dropped, after.acked messageId.slot)
      (keeps : conditions.remembering → ∀ message ∈ view.messages,
        view.acked message.messageId.slot → after.acked message.messageId.slot)
      (watch : conditions.watch after delivered) :
      Change conditions dispatcher delivered view common false after { common with
        consumers := consumers
        redeliveryController := common.redeliveryController.sweep dropped
        readPosition := readPositionAfterAck common.readPosition firstUnacked }
  | returned {consumerId : Nat} {consumer : Consumer} {messageIds : List MessageId}
      {reader : SubscriptionReader}
      (permitted : conditions.returns dispatcher consumerId messageIds)
      (presents : Presents reader view)
      (member : (consumerId, consumer) ∈ common.consumers.bindings) :
      Change conditions dispatcher delivered view common false view ((common.putConsumer consumerId
        (takeForRedelivery messageIds consumer).2).addRedeliveryEntries
          ((takeForRedelivery messageIds consumer).1.filter fun entry =>
            !reader.isAcknowledged entry.1))
  | left {consumerId : Nat} {consumer : Consumer} {entries : List RedeliveryEntry}
      (permitted : conditions.leaves dispatcher consumerId)
      (member : (consumerId, consumer) ∈ common.consumers.bindings)
      (queues : entries.map Prod.fst = consumer.pendingAcks.keys)
      (labelled : dispatcher.getType = .keyShared →
        entries = consumer.pendingAcks.bindings.map redeliveryOf) :
      Change conditions dispatcher delivered view common true view
        (DispatcherEnum.Left common consumerId consumer entries)
  | unknown : Change conditions dispatcher delivered view common true view common

variable (site) in
/-- An invariant of a dispatcher with many consumers, for what is stored and what
was delivered: it holds at first, and every change and every pass keeps it. -/
structure Invariant (subType : SubscriptionType) (keySharedPolicy : Option KeySharedPolicy)
    (conditions : Conditions)
    (holds : SubscriptionView → DispatcherEnum → List Delivery → Prop) : Prop where
  multiple : ∀ {view dispatcher delivered}, holds view dispatcher delivered →
    ∃ common, dispatcher.multiple = some common
  stored : ∀ {view dispatcher delivered common}, holds view dispatcher delivered →
    dispatcher.multiple = some common → ∀ messageId, common.Pends messageId →
      ∃ message ∈ view.messages, message.messageId = messageId
  created : ∀ {view readPosition}, conditions.watch view [] →
    (∀ position, readPosition = some position → Reached view (fun _ => False) position) →
    holds view ((newWithKeySharedPolicy subType keySharedPolicy).initReadPosition
      readPosition) []
  changed : ∀ {view dispatcher delivered common rebuilt later next after},
    holds view dispatcher delivered → dispatcher.multiple = some common →
    Change conditions dispatcher delivered view common rebuilt later next →
    dispatcher.Replaces rebuilt next after → holds later after delivered
  passed : ∀ {view dispatcher delivered reader slots}, holds view dispatcher delivered →
    Presents reader view →
    holds view (dispatcher.dispatchMessages ⟨reader, site.decode, site.fuel⟩ slots delivered).2.1
      (dispatcher.dispatchMessages ⟨reader, site.decode, site.fuel⟩ slots delivered).2.2

variable {partition : Int} {subType : SubscriptionType} {keySharedPolicy : Option KeySharedPolicy}
  {conditions : Conditions} {holds : SubscriptionView → DispatcherEnum → List Delivery → Prop}
  {subscription : Subscription}

theorem Invariant.modified {view later : SubscriptionView} {delivered : List Delivery}
    (invariant : Invariant site subType keySharedPolicy conditions holds)
    (held : holds view dispatcher delivered) (isCommon : dispatcher.multiple = some common)
    (happens : Change conditions dispatcher delivered view common false later (change common)) :
    holds later (dispatcher.modify change) delivered :=
  invariant.changed held isCommon happens (modify_replaces isCommon change)

variable (site) in
/-- The state of a subscription with many consumers, over a view of its store. -/
structure Sustains (partition : Int) (subType : SubscriptionType)
    (keySharedPolicy : Option KeySharedPolicy) (conditions : Conditions)
    (holds : SubscriptionView → DispatcherEnum → List Delivery → Prop)
    (subscription : Subscription) (view : SubscriptionView) : Prop where
  isType : subscription.subType = subType
  isPolicy : subscription.keySharedPolicy = keySharedPolicy
  serves : Serves site.topic site.name partition subscription.store view
  orderly : Orderly site.topic site.name subscription.store
  remembers : conditions.remembering → Remembers site.topic site.name subscription.store
  idle : subscription.dispatcher = Option.none → subscription.delivered = [] ∧
    conditions.watch view [] ∧ ∀ position, subscription.pendingFirstUnacked = some (some position) →
      Reached view (fun _ => False) position
  busy : ∀ dispatcher, subscription.dispatcher = some dispatcher →
    subscription.pendingFirstUnacked = Option.none ∧ dispatcher.getType = subType ∧
      holds view dispatcher subscription.delivered

theorem Sustains.with_dispatcher {view dispatcher delivered}
    (sustains : Sustains site partition subType keySharedPolicy conditions holds subscription view)
    (unused : subscription.pendingFirstUnacked = Option.none)
    (isType : dispatcher.getType = subType) (held : holds view dispatcher delivered) :
    Sustains site partition subType keySharedPolicy conditions holds { subscription with
      dispatcher := some dispatcher
      delivered := delivered } view where
  isType := sustains.isType
  isPolicy := sustains.isPolicy
  serves := sustains.serves
  orderly := sustains.orderly
  remembers := sustains.remembers
  idle := nofun
  busy := by
    rintro other ⟨⟩
    exact ⟨unused, isType, held⟩

section

variable (invariant : Invariant site subType keySharedPolicy conditions holds)
  (isMultiple : subType = .shared ∨ subType = .keyShared) {view : SubscriptionView}
  (sustains : Sustains site partition subType keySharedPolicy conditions holds subscription view)
include invariant sustains

theorem Sustains.publish (publishable : Publishable partition items)
    (fits : Fits site.topic (subscription.store.appendMessages site.topic items))
    (watched : Watched site partition conditions (subscription.handle site (.publish items))) :
    ∃ after, Sustains site partition subType keySharedPolicy conditions holds
      (subscription.handle site (.publish items)) after := by
  obtain ⟨after, serves, grows, orderly, remembers⟩ := sustains.serves.append publishable fits
  have watch := watched after serves
  refine ⟨after, sustains.isType, sustains.isPolicy, serves, orderly sustains.orderly,
    fun remembering => remembers (sustains.remembers remembering), ?_, ?_⟩
  · intro isNone
    obtain ⟨nothing, _, reached⟩ := sustains.idle isNone
    have same : (subscription.handle site (.publish items)).delivered = [] := nothing
    rw [same] at watch
    exact ⟨nothing, watch, fun position isPosition => (reached position isPosition).grows grows⟩
  · intro dispatcher isDispatcher
    obtain ⟨unused, isType, held⟩ := sustains.busy dispatcher isDispatcher
    obtain ⟨common, isCommon⟩ := invariant.multiple held
    have same : dispatcher.modify id = dispatcher := by cases dispatcher <;> rfl
    have published := invariant.modified held isCommon
      (.published grows serves.presents.lined watch : Change _ _ _ _ _ _ _ (id common))
    exact ⟨unused, isType, same ▸ published⟩

theorem Sustains.to_join : subscription.dispatcherToJoin.getType = subType ∧
      holds view subscription.dispatcherToJoin subscription.delivered := by
  unfold dispatcherToJoin reuseOrCreateDispatcher
  cases isDispatcher : subscription.dispatcher with
  | none =>
    obtain ⟨nothing, watch, reached⟩ := sustains.idle isDispatcher
    rw [nothing, sustains.isType, sustains.isPolicy]
    cases isPending : subscription.pendingFirstUnacked with
    | none =>
      have created : holds view ((newWithKeySharedPolicy subType
          keySharedPolicy).initReadPosition none) [] := invariant.created watch nofun
      refine ⟨new_type _ _, ?_⟩
      cases subType <;> exact created
    | some position =>
      refine ⟨by simp, invariant.created watch ?_⟩
      rintro position ⟨⟩
      exact reached position isPending
  | some dispatcher =>
    obtain ⟨unused, isType, held⟩ := sustains.busy dispatcher isDispatcher
    simp only [unused, isType, sustains.isType, ne_eq, not_true_eq_false, decide_false,
      Bool.and_false, Bool.false_eq_true, if_false]
    exact ⟨trivial, held⟩

theorem Sustains.add_consumer {priority : Int} {policy : Option KeySharedPolicy}
    (permitted : conditions.joins subscription.dispatcherToJoin consumerId) :
    Sustains site partition subType keySharedPolicy conditions holds
      (subscription.addConsumer consumerId (.new name priority policy)) view := by
  obtain ⟨isType, held⟩ := sustains.to_join invariant
  refine ⟨sustains.isType, sustains.isPolicy, sustains.serves, sustains.orderly,
    sustains.remembers, nofun, ?_⟩
  rintro dispatcher ⟨⟩
  refine ⟨rfl, ?_⟩
  cases added : subscription.dispatcherToJoin.addConsumer consumerId
      (.new name priority policy) with
  | none => exact ⟨isType, held⟩
  | some joined =>
    obtain ⟨common, isCommon⟩ := invariant.multiple held
    obtain ⟨fresh, replaces⟩ := add_consumer_replaces isCommon added
    exact ⟨(add_consumer_type added).trans isType,
      invariant.changed held isCommon (.joined permitted fresh) replaces⟩

theorem Sustains.modified (isDispatcher : subscription.dispatcher = some dispatcher)
    (happens : ∀ common, dispatcher.multiple = some common →
      Change conditions dispatcher subscription.delivered view common false view (change common)) :
    Sustains site partition subType keySharedPolicy conditions holds { subscription with
      dispatcher := some (dispatcher.modify change) } view := by
  obtain ⟨unused, isType, held⟩ := sustains.busy dispatcher isDispatcher
  obtain ⟨common, isCommon⟩ := invariant.multiple held
  apply sustains.with_dispatcher unused
  · rw [modify_type, isType]
  · exact invariant.modified held isCommon (happens common isCommon)

theorem Sustains.flow {permits : Nat} (permitted : ∀ dispatcher ∈ subscription.dispatcher,
      conditions.flows dispatcher consumerId permits) :
    Sustains site partition subType keySharedPolicy conditions holds
      (subscription.flow consumerId permits) view := by
  unfold Subscription.flow
  split
  next => exact sustains
  next dispatcher isDispatcher =>
    split
    next => exact sustains
    next consumer found =>
      obtain ⟨_, _, held⟩ := sustains.busy dispatcher isDispatcher
      obtain ⟨_, isCommon⟩ := invariant.multiple held
      rw [consumer_flow_eq isCommon]
      apply sustains.modified invariant isDispatcher
      intro common isCommon
      rw [multiple_consumers isCommon] at found
      have member := find_eq_some.mp found
      exact .tuned (.put member rfl (fun _ pending => pending) fun _ pending _ => pending)
        (.inr ⟨consumerId, consumer, permits, permitted dispatcher isDispatcher, member, rfl, rfl⟩)

theorem Sustains.set_writable {isWritable : Bool} :
    Sustains site partition subType keySharedPolicy conditions holds
      (subscription.setWritable consumerId isWritable) view := by
  unfold setWritable
  split
  next => exact sustains
  next dispatcher isDispatcher =>
    split
    next => exact sustains
    next consumer found =>
      obtain ⟨_, _, held⟩ := sustains.busy dispatcher isDispatcher
      obtain ⟨_, isCommon⟩ := invariant.multiple held
      rw [put_consumer_eq isCommon]
      apply sustains.modified invariant isDispatcher
      intro common isCommon
      rw [multiple_consumers isCommon] at found
      have member := find_eq_some.mp found
      exact .tuned (.put member rfl (fun _ pending => pending) fun _ pending _ => pending)
        (.inl ⟨standings_put member rfl, rfl⟩)

theorem Sustains.dispatch : Sustains site partition subType keySharedPolicy conditions holds
      (subscription.dispatchMessages site slots) view := by
  unfold dispatchMessages
  split
  next => exact sustains
  next dispatcher isDispatcher =>
    obtain ⟨unused, isType, held⟩ := sustains.busy dispatcher isDispatcher
    apply sustains.with_dispatcher unused
    · rw [dispatch_messages_type, isType]
    · exact invariant.passed held sustains.serves.presents

include isMultiple in
theorem Sustains.remove_consumer
    (permitted : ∀ dispatcher ∈ subscription.dispatcher, conditions.leaves dispatcher consumerId) :
    Sustains site partition subType keySharedPolicy conditions holds
      (subscription.removeConsumerWithRecovery site consumerId slots) view := by
  unfold removeConsumerWithRecovery
  split
  next => exact sustains
  next dispatcher isDispatcher =>
    obtain ⟨unused, isType, held⟩ := sustains.busy dispatcher isDispatcher
    have left : Sustains site partition subType keySharedPolicy conditions holds { subscription with
        dispatcher := some (dispatcher.removeConsumerWithRecovery (subscription.reader site)
          consumerId) } view := by
      apply sustains.with_dispatcher unused
      · rw [remove_consumer_type, isType]
      obtain ⟨common, isCommon⟩ := invariant.multiple held
      rcases remove_consumer_replaces isCommon (subscription.reader site) consumerId with
        replaces | ⟨consumer, entries, member, queues, labelled, replaces⟩
      · exact invariant.changed held isCommon .unknown replaces
      · exact invariant.changed held isCommon
          (.left (permitted dispatcher isDispatcher) member queues labelled) replaces
    have passed : Sustains site partition subType keySharedPolicy conditions holds
        (dispatchMessages site slots { subscription with
          dispatcher := some (dispatcher.removeConsumerWithRecovery (subscription.reader site)
            consumerId) }) view := left.dispatch invariant
    dsimp only
    generalize dispatchMessages site slots _ = after at passed
    -- the dispatcher of a subscription with many consumers is never dropped
    have stays : after.dispatcher.filter (fun dispatcher => dispatcher.isConsumerConnected ||
        decide (dispatcher.getType = .shared ∨ dispatcher.getType = .keyShared)) =
          after.dispatcher := by
      cases isAfter : after.dispatcher with
      | none => rfl
      | some last =>
        obtain ⟨_, isType, _⟩ := passed.busy last isAfter
        simp [isType, isMultiple]
    rw [stays]
    exact passed

theorem Sustains.redeliver (permitted : ∀ dispatcher ∈ subscription.dispatcher,
      conditions.returns dispatcher consumerId messageIds) :
    Sustains site partition subType keySharedPolicy conditions holds
      (subscription.redeliverUnacknowledgedMessages site consumerId messageIds slots).2 view := by
  have requeued dispatcher consumer : subscription.dispatcher = some dispatcher →
      dispatcher.consumers.find consumerId = some consumer →
      Sustains site partition subType keySharedPolicy conditions holds { subscription with
        dispatcher := some ((dispatcher.putConsumer consumerId
          (takeForRedelivery messageIds consumer).2).redeliverMessages
            ((takeForRedelivery messageIds consumer).1.filter fun entry =>
              !(subscription.reader site).isAcknowledged entry.1)) } view := by
    intro isDispatcher found
    obtain ⟨_, _, held⟩ := sustains.busy dispatcher isDispatcher
    obtain ⟨_, isCommon⟩ := invariant.multiple held
    rw [put_consumer_eq isCommon, redeliver_messages_eq, modify_modify]
    apply sustains.modified invariant isDispatcher
    intro common isCommon
    rw [multiple_consumers isCommon] at found
    exact .returned (permitted dispatcher isDispatcher) sustains.serves.presents
      (find_eq_some.mp found)
  unfold redeliverUnacknowledgedMessages
  split
  next => exact sustains
  next => exact sustains
  all_goals
    split
    next => exact sustains
    next dispatcher isDispatcher =>
      split
      next => exact sustains
      next consumer found =>
        have before := requeued dispatcher consumer isDispatcher found
        dsimp only
        split_ifs with isEmpty
        · rw [isEmpty_iff.mp isEmpty] at before
          cases dispatcher <;> exact before
        · exact before.dispatch invariant

theorem Sustains.acknowledge_shared {dispatcher common tracked}
    (isDispatcher : subscription.dispatcher = some dispatcher)
    (isCommon : dispatcher.multiple = some common)
    (thinned : Thinned tracked common.consumers consumers)
    (same : standings consumers = standings common.consumers)
    (pends : ∀ messageId ∈ tracked, common.Pends messageId)
    (watched : Watched site partition conditions
      (acknowledgeShared site tracked { subscription with
        dispatcher := some (dispatcher.modify fun common =>
          { common with consumers := consumers }) }).2) :
    ∃ after, Sustains site partition subType keySharedPolicy conditions holds
      (acknowledgeShared site tracked { subscription with
        dispatcher := some (dispatcher.modify fun common =>
          { common with consumers := consumers }) }).2 after := by
  obtain ⟨unused, isType, held⟩ := sustains.busy dispatcher isDispatcher
  obtain ⟨store, after, done, serves, orderly, reacked, acked, keeps⟩ :=
    ack_each_shared sustains.serves sustains.orderly tracked
      fun messageId member => invariant.stored held isCommon messageId (pends messageId member)
  obtain ⟨firstUnacked, first, _⟩ := serves.presents.firstUnacked
  obtain ⟨dropped, isDropped, includes, updated⟩ := acknowledged_eq
    (modify_multiple isCommon fun common => { common with consumers := consumers })
    first tracked
  rw [modify_modify] at updated
  simp only [acknowledgeShared, done, reader, updated] at watched ⊢
  refine ⟨after, sustains.isType, sustains.isPolicy, serves, orderly,
    fun remembering => (keeps (sustains.remembers remembering)).1, nofun, ?_⟩
  rintro last ⟨⟩
  refine ⟨unused, by rw [modify_type, isType], ?_⟩
  refine invariant.modified held isCommon
    (.acked thinned same reacked serves.presents first includes ?_ ?_ ?_)
  · intro messageId member
    rcases isDropped messageId member with isTracked | isAcked
    · exact acked messageId isTracked
    · exact (serves.presents.acknowledged messageId).mp isAcked
  · exact fun remembering => (keeps (sustains.remembers remembering)).2
  · exact watched after serves

include isMultiple in
theorem Sustains.ack (watched : Watched site partition conditions
      (subscription.messageAcked site consumerId ackType messageIds walk).2) :
    ∃ after, Sustains site partition subType keySharedPolicy conditions holds
      (subscription.messageAcked site consumerId ackType messageIds walk).2 after := by
  cases isDispatcher : subscription.dispatcher with
  | none =>
    simp only [messageAcked, isDispatcher]
    exact ⟨view, sustains⟩
  | some dispatcher =>
    rw [message_acked_multiple isDispatcher (sustains.isType ▸ isMultiple)] at watched ⊢
    obtain ⟨unused, isType, held⟩ := sustains.busy dispatcher isDispatcher
    obtain ⟨common, isCommon⟩ := invariant.multiple held
    obtain ⟨consumers, taken, thinned, same, pends⟩ :=
      take_acked_spec walk consumerId messageIds isCommon
    split_ifs at watched ⊢ with known nothing
    · exact ⟨view, sustains⟩
    · rw [isEmpty_iff.mp nothing] at thinned
      refine ⟨view, sustains.with_dispatcher unused ?_ ?_⟩
      · rw [taken, modify_type, isType]
      · rw [taken]
        exact invariant.modified held isCommon (.tuned thinned (.inl ⟨same, rfl⟩))
    · rw [taken] at watched ⊢
      exact sustains.acknowledge_shared invariant isDispatcher isCommon thinned same pends watched

include isMultiple in
theorem Sustains.handle {request : Request}
    (permitted : Permitted site partition conditions subscription request) :
    ∃ after, Sustains site partition subType keySharedPolicy conditions holds
      (subscription.handle site request) after := by
  obtain ⟨permitted, watched⟩ := permitted
  cases request with
  | publish items => exact sustains.publish invariant permitted.1 permitted.2 watched
  | addConsumer => exact ⟨view, sustains.add_consumer invariant permitted⟩
  | flow => exact ⟨view, sustains.flow invariant permitted⟩
  | dispatch => exact ⟨view, sustains.dispatch invariant⟩
  | ack => exact sustains.ack invariant isMultiple watched
  | redeliver => exact ⟨view, sustains.redeliver invariant permitted⟩
  | removeConsumer => exact ⟨view, sustains.remove_consumer invariant isMultiple permitted⟩
  | setWritable => exact ⟨view, sustains.set_writable invariant⟩
  | seek => exact permitted.elim

end

variable (site) in
/-- A subscription that was just created, on a topic that may have messages. It may
start at one of them. -/
def Started (partition : Int) (subType : SubscriptionType)
    (keySharedPolicy : Option KeySharedPolicy) (start : Subscription) : Prop :=
  ∃ store options, Prepared site.topic site.name partition store ∧
    (∀ messageId, options.startMessageId = some messageId →
      ∃ message, (store.reader site.topic site.name).getMessageEntryById messageId =
        some message) ∧
    create site subType keySharedPolicy options store = .ok start

theorem Started.shown (started : Started site partition subType keySharedPolicy start) :
    ∃ view first, Serves site.topic site.name partition start.store view ∧
      Orderly site.topic site.name start.store ∧
      (start.reader site).firstUnackedPosition = .ok first ∧
      start = ⟨subType, keySharedPolicy, none, some first, start.store, []⟩ := by
  obtain ⟨store, options, prepared, isStored, created⟩ := started
  obtain ⟨view, serves, orderly⟩ := prepared.serves
  have stored messageId : options.startMessageId = some messageId →
      ∃ message ∈ view.messages, message.messageId = messageId := by
    intro chosen
    obtain ⟨message, found⟩ := isStored messageId chosen
    exact ⟨message, (serves.presents.entry messageId message).mp found⟩
  obtain ⟨after, served, kept, _, result, opened, first⟩ := serves.open_cursor orderly stored
  unfold create at created
  generalize store.initializeOrOpenCursor site.topic site.name options = answer at *
  obtain ⟨outcome, store⟩ := answer
  cases opened
  cases created
  exact ⟨after, _, served, kept, first, rfl⟩

theorem Started.sustains (started : Started site partition subType keySharedPolicy start)
    (watched : Watched site partition conditions start)
    (remembers : conditions.remembering → Remembers site.topic site.name start.store) :
    ∃ view, Sustains site partition subType keySharedPolicy conditions holds start view := by
  obtain ⟨view, first, served, kept, isFirst, same⟩ := started.shown
  rw [same] at watched remembers served kept isFirst ⊢
  refine ⟨view, rfl, rfl, served, kept, remembers, ?_, nofun⟩
  intro _
  refine ⟨rfl, watched view served, ?_⟩
  rintro position isPosition
  exact first_reached served.presents isFirst position (some.inj isPosition)

theorem Invariant.run {state : Subscription}
    (invariant : Invariant site subType keySharedPolicy conditions holds)
    (isMultiple : subType = .shared ∨ subType = .keyShared)
    (started : Started site partition subType keySharedPolicy start)
    (watched : Watched site partition conditions start)
    (remembers : conditions.remembering → Remembers site.topic site.name start.store)
    (run : Run (handle site) (Permitted site partition conditions) start state) :
    ∃ view, Sustains site partition subType keySharedPolicy conditions holds state view := by
  apply run.invariant
  · exact started.sustains watched remembers
  · rintro state request ⟨view, sustains⟩ permitted
    exact sustains.handle invariant isMultiple permitted

end

open ManagedLedgerStore

/-- What prost decodes from field 11 alone, which is `num_messages_in_batch`, and from
field 6 alone, which is `partition_key`, if the one is a byte and the other a letter. -/
def sampleDecode : Decode
  | [88, batch] => if batch < 128 then some ⟨[], 0, none, none, some batch.toNat⟩ else none
  | [50, 1, letter] => if letter < 128 then some ⟨[], 0, some [letter], none, none⟩ else none
  | _ => none

theorem sample_batch_count (metadata : Bytes) : messagesInBatch sampleDecode metadata ≤ 127 := by
  unfold messagesInBatch sampleDecode
  split
  next value isValue =>
    split at isValue
    next batch =>
      split_ifs at isValue with small
      · cases isValue
        have below : batch.toNat < 128 := small
        split_ifs
        · exact Nat.le_of_lt_succ below
        · decide
      · cases isValue
    next => split_ifs at isValue <;> cases isValue
    next => cases isValue
  next => decide

def sampleSite : SubscriptionSite where
  topic := ['t']
  name := ['s']
  decode := sampleDecode
  fuel := 10

def sampleStore : ManagedLedgerStore :=
  (ManagedLedgerStore.memory InMemoryManagedLedgerStorage.new).createTopic sampleSite.topic

/-- It begins at the first message, of which there is none yet. -/
def sampleStart (subType : SubscriptionType) : Subscription where
  subType := subType
  keySharedPolicy := none
  dispatcher := none
  pendingFirstUnacked := some none
  store := (sampleStore.initializeOrOpenCursor sampleSite.topic sampleSite.name
    ⟨.earliest, none⟩).2
  delivered := []

def sampleItem : Item where
  partition := -1
  metadata := [255]
  payload := [1]

/-- Ten messages in one entry. -/
def sampleBatch : Item :=
  { sampleItem with metadata := [88, 10] }

def sampleMessage (entry : Nat) : StoredMessage where
  messageId := ⟨0, entry, -1⟩
  metadata := [255]
  payload := [1]

def samplePlay (subType : SubscriptionType) (requests : List Request) : Subscription :=
  requests.foldl (handle sampleSite) (sampleStart subType)

theorem sample_started (subType) : Started sampleSite (-1) subType none (sampleStart subType) := by
  refine ⟨sampleStore, ⟨.earliest, none⟩, ?_, nofun, rfl⟩
  apply Prepared.created
  · exact ⟨rfl, rfl, rfl⟩
  · rintro ledger ⟨⟩
    decide

theorem sample_publishable : Publishable (-1) [sampleItem] := .one (by decide) rfl

theorem sample_batch_publishable : Publishable (-1) [sampleBatch] := .one (by decide) rfl

theorem permits_unasked {site partition}
    (unasked : (∀ items, .publish items ∉ requests) ∧
      ∀ consumerId messageId, .seek consumerId messageId ∉ requests) :
    Run.Permits (handle site) (Permitted site partition .none) start requests := by
  refine Run.permits_iff.mpr fun before request after split => ⟨?_, fun _ _ => trivial⟩
  cases request with
  | publish items => exact (unasked.1 items (by simp [split])).elim
  | seek consumerId messageId => exact (unasked.2 consumerId messageId (by simp [split])).elim
  | flow | redeliver | removeConsumer => exact fun _ _ => trivial
  | addConsumer | dispatch | ack | setWritable => trivial

theorem sample_run (subType : SubscriptionType) (publishable : Publishable (-1) items)
    (fits : Fits sampleSite.topic
      ((sampleStart subType).store.appendMessages sampleSite.topic items))
    (unasked : (∀ items, .publish items ∉ requests) ∧
      ∀ consumerId messageId, .seek consumerId messageId ∉ requests) :
    Run (handle sampleSite) (Permitted sampleSite (-1) .none) (sampleStart subType)
      (samplePlay subType (.publish items :: requests)) :=
  Run.of_permits ⟨⟨⟨publishable, fits⟩, fun _ _ => trivial⟩, permits_unasked unasked⟩

end Subscription

end PulsarLite.Broker
