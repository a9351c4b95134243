import PulsarLite.Broker.KeySharedRun

/-!
# Whether redelivery blocks itself

The hash of a message that was taken out of the redelivery queue stays in flight
until the message is acknowledged or put back after a failed attempt. A consumer
that gives the message back, on request or by leaving, puts it in the queue with
its hash still in flight, and from then on the message waits for itself.
-/

namespace PulsarLite.Broker.KeySharedDispatcher

open Library Storage Subscription OrderedMap List RedeliveryController

/-- Nothing queued is in flight, and everything in flight is pending. -/
structure Clear (dispatcher : KeySharedDispatcher) : Prop where
  apart : ∀ messageId ∈ dispatcher.redeliveryController.entries,
    messageId ∉ dispatcher.redeliveryController.inFlightHashes
  awaited : ∀ messageId ∈ dispatcher.redeliveryController.inFlightHashes,
    dispatcher.Pends messageId

def AllOpen (consumers : OrderedMap Nat Consumer) : Prop :=
  ∀ consumer ∈ consumers.bindings, consumer.2.closed = false

theorem AllOpen.insert {consumers consumerId consumer} (allOpen : AllOpen consumers)
    (isOpen : consumer.closed = false) : AllOpen (consumers.insert consumerId consumer) := by
  intro other member
  rcases mem_bindings_insert.mp member with rfl | ⟨_, old⟩
  · exact isOpen
  · exact allOpen other old

/-- No consumer gives back a message that is in flight. -/
def givingBackFresh : Conditions :=
  { Conditions.none with
    leaves := fun dispatcher consumerId => ∀ common, dispatcher.multiple = some common →
      ∀ consumer, (consumerId, consumer) ∈ common.consumers.bindings →
        ∀ messageId ∈ consumer.pendingAcks,
          messageId ∉ common.redeliveryController.inFlightHashes
    returns := fun dispatcher consumerId messageIds => ∀ common,
      dispatcher.multiple = some common →
      ∀ consumer, (consumerId, consumer) ∈ common.consumers.bindings →
        ∀ entry ∈ (takeForRedelivery messageIds consumer).1,
          entry.1 ∉ common.redeliveryController.inFlightHashes }

section

variable {context : DispatchContext} {view : SubscriptionView} {before after : Course}
  (move : Move context view before after)
include move

theorem Move.all_open
    (allOpen : AllOpen before.dispatcher.consumers) : AllOpen after.dispatcher.consumers := by
  cases move with
  | swept | advanced => exact allOpen
  | redelivered dropped redelivery queued after gone popped permits total =>
    obtain ⟨_, member, _⟩ := select_consumer_some popped.selected
    exact allOpen.insert (allOpen _ member)
  | restored dropped redelivery queued after gone popped count unsent total bounced =>
    obtain ⟨_, member, _⟩ := select_consumer_some popped.selected
    exact allOpen.insert (bounced.closed.trans (allOpen _ member))
  | blocked => exact allOpen
  | handed candidate message offered free consumerId consumer selected permits total =>
    obtain ⟨_, member, _⟩ := select_consumer_some selected
    exact allOpen.insert (allOpen _ member)
  | deferred candidate message offered consumerId consumer unsent total selected bounced =>
    obtain ⟨_, member, _⟩ := select_consumer_some selected
    exact allOpen.insert (bounced.closed.trans (allOpen _ member))

theorem Move.clear (clear : Clear before.dispatcher) : Clear after.dispatcher := by
  cases move with
  | swept dropped gone =>
    constructor
    · intro messageId isQueued flies
      exact clear.apart messageId (mem_sweep.mp isQueued).2 (sweep_flies.mp flies).2
    · exact fun messageId flies =>
        clear.awaited messageId (sweep_flies.mp flies).2
  | advanced => exact ⟨clear.apart, clear.awaited⟩
  | redelivered dropped redelivery queued after gone popped permits total =>
    obtain ⟨_, member, _⟩ := select_consumer_some popped.selected
    constructor
    · intro messageId isQueued flies
      rw [popped.taken.entries, mem_erase, mem_sweep] at isQueued
      rcases popped.taken.flies flies with isMessage | old
      · exact isQueued.1 isMessage
      · exact clear.apart messageId isQueued.2.2 (sweep_flies.mp old).2
    · intro messageId flies
      apply (held_sent member).mpr
      exact (popped.taken.flies flies).imp_right fun old =>
        clear.awaited messageId (sweep_flies.mp old).2
  | restored dropped redelivery queued after gone popped count unsent total bounced =>
    obtain ⟨_, member, _⟩ := select_consumer_some popped.selected
    have flew messageId : messageId ∈ (after.restore (redelivery.stored.messageId,
        ⟨count, some (queuedHash context queued redelivery.stored)⟩)).inFlightHashes →
        messageId ≠ redelivery.stored.messageId ∧
          messageId ∈ before.dispatcher.redeliveryController.inFlightHashes := by
      intro flies
      obtain ⟨different, flies⟩ := restore_flies.mp flies
      rcases popped.taken.flies flies with isMessage | old
      · exact absurd isMessage different
      · exact ⟨different, (sweep_flies.mp old).2⟩
    constructor
    · intro messageId isQueued flies
      obtain ⟨different, old⟩ := flew messageId flies
      rw [mem_restore, popped.taken.entries, mem_erase, mem_sweep] at isQueued
      rcases isQueued with isMessage | ⟨_, _, wasQueued⟩
      · exact different isMessage
      · exact clear.apart messageId wasQueued old
    · intro messageId flies
      obtain ⟨different, old⟩ := flew messageId flies
      exact (Held.bounced member bounced (clear.awaited messageId old)).resolve_left different
  | blocked candidate message offered =>
    constructor
    · intro messageId isQueued flies
      rw [add_in_flight] at flies
      rcases mem_add.mp isQueued with rfl | old
      · exact offered.idle (clear.awaited _ flies)
      · exact clear.apart messageId old flies
    · intro messageId flies
      rw [add_in_flight] at flies
      exact clear.awaited messageId flies
  | handed candidate message offered free consumerId consumer selected permits total =>
    obtain ⟨_, member, _⟩ := select_consumer_some selected
    exact ⟨clear.apart, fun messageId flies =>
      (held_sent member).mpr (.inr (clear.awaited messageId flies))⟩
  | deferred candidate message offered consumerId consumer unsent total selected bounced =>
    obtain ⟨_, member, _⟩ := select_consumer_some selected
    constructor
    · intro messageId isQueued flies
      obtain ⟨different, old⟩ := restore_flies.mp flies
      rcases mem_restore.mp isQueued with isMessage | wasQueued
      · exact different isMessage
      · exact clear.apart messageId wasQueued old
    · intro messageId flies
      obtain ⟨different, old⟩ := restore_flies.mp flies
      exact (Held.bounced member bounced (clear.awaited messageId old)).resolve_left different

end

theorem Clear.add_all {dispatcher after : KeySharedDispatcher} {entries : List RedeliveryEntry}
    (clear : Clear dispatcher)
    (added : after.redeliveryController = entries.foldl .add dispatcher.redeliveryController)
    (fresh : ∀ entry ∈ entries, entry.1 ∉ dispatcher.redeliveryController.inFlightHashes)
    (held : ∀ messageId ∈ dispatcher.redeliveryController.inFlightHashes, after.Pends messageId) :
    Clear after := by
  constructor
  · intro messageId isQueued flies
    rw [added] at isQueued flies
    rw [add_all_in_flight] at flies
    rcases mem_add_all.mp isQueued with ⟨entry, isEntry, rfl⟩ | old
    · exact fresh entry isEntry flies
    · exact clear.apart messageId old flies
  · intro messageId flies
    rw [added, add_all_in_flight] at flies
    exact held messageId flies

theorem clear_invariant (site keySharedPolicy) :
    KeySharedInvariant site keySharedPolicy givingBackFresh fun _ dispatcher _ =>
      Clear dispatcher ∧ AllOpen dispatcher.consumers where
  created := by
    intro view readPosition _ _
    refine ⟨⟨?_, ?_⟩, ?_⟩
    · exact fun _ absent => absurd absent not_mem_empty
    · exact fun _ absent => absurd absent not_mem_empty
    · exact fun _ absent => absurd absent not_mem_bindings_empty
  changed := by
    rintro view dispatcher delivered rebuilt later common ⟨clear, allOpen⟩ _ change
    cases change with
    | published => exact ⟨clear, allOpen⟩
    | joined _ fresh =>
      refine ⟨⟨clear.apart, ?_⟩, allOpen.insert rfl⟩
      intro messageId flies
      obtain ⟨consumer, member, pending⟩ := clear.awaited messageId flies
      refine ⟨consumer, mem_bindings_insert.mpr (.inr ⟨?_, member⟩), pending⟩
      rintro rfl
      exact fresh (mem_of_binding member)
    | tuned thinned =>
      refine ⟨⟨clear.apart, ?_⟩, thinned.closed allOpen⟩
      intro messageId flies
      exact (thinned.still_held (clear.awaited messageId flies)).resolve_left not_mem_nil
    | acked thinned _ _ _ _ includes =>
      refine ⟨⟨?_, ?_⟩, thinned.closed allOpen⟩
      · intro messageId isQueued flies
        exact clear.apart messageId (mem_sweep.mp isQueued).2 (sweep_flies.mp flies).2
      intro messageId flies
      obtain ⟨isLeft, flies⟩ := sweep_flies.mp flies
      rcases thinned.still_held (clear.awaited messageId flies) with isTracked | held
      · exact absurd (includes messageId isTracked) isLeft
      · exact held
    | @returned consumerId consumer messageIds reader fresh _ member =>
      have notFlying := fresh _ rfl consumer member
      have thinned := (take_for_redelivery_spec messageIds consumer).thinned member
      refine ⟨clear.add_all rfl (fun entry isEntry => notFlying _ (mem_filter.mp isEntry).1) ?_,
        thinned.closed allOpen⟩
      intro messageId flies
      rcases thinned.still_held (clear.awaited messageId flies) with taken | held
      · obtain ⟨entry, isEntry, rfl⟩ := mem_map.mp taken
        exact absurd flies (notFlying entry isEntry)
      · exact held
    | @left consumerId consumer _ fresh member _ labelled =>
      cases labelled rfl
      have notFlying := fresh _ rfl consumer member
      refine ⟨clear.add_all rfl ?_ ?_, fun other isOther =>
        allOpen other (mem_bindings_erase.mp isOther).2⟩
      · intro entry isEntry
        obtain ⟨pending, isPending, rfl⟩ := mem_map.mp isEntry
        exact notFlying pending.1 (mem_of_binding isPending)
      intro messageId flies
      rcases (held_split member).mp (clear.awaited messageId flies) with isPending |
        ⟨holder, isHolder, different, isPending⟩
      · exact absurd flies (notFlying messageId isPending)
      · exact ⟨holder, mem_bindings_erase.mpr ⟨different, isHolder⟩, isPending⟩
    | unknown => exact ⟨⟨clear.apart, clear.awaited⟩, allOpen⟩
  moved _ move _ _ held := ⟨move.clear held.1, move.all_open held.2⟩

section

variable {context : DispatchContext} {view : SubscriptionView} {dropped : List MessageId}
  {queued : PendingAck}

theorem Move.delivered_extends {before after : Course} (move : Move context view before after) :
    before.delivered <+: after.delivered := by
  cases move with
  | redelivered | handed => exact prefix_append _ _
  | swept | advanced | restored | blocked | deferred => exact prefix_refl _

/-- A queued message whose owner can take it, while no message of its hash is pending. -/
structure Due (context : DispatchContext) (dispatcher : KeySharedDispatcher)
    (slots : ChannelSlots) (message : StoredMessage) (consumerId : Nat) : Prop where
  queued : message.messageId ∈ dispatcher.redeliveryController.entries
  stored : context.reader.getMessageEntryById message.messageId = some message
  unacked : context.reader.isAcknowledged message.messageId = false
  owner : ∃ consumer, dispatcher.selectConsumerForHash (hashOf context message) =
    some (consumerId, consumer)
  room : slots.headD true = true
  idle : ∀ other : StoredMessage, context.reader.getMessageEntryById other.messageId = some other →
    dispatcher.Pends other.messageId → hashOf context other ≠ hashOf context message

/-- There is nothing either that a pass would deliver instead, and the pass is let in. -/
structure Deliverable (context : DispatchContext) (dispatcher : KeySharedDispatcher)
    (slots : ChannelSlots) (message : StoredMessage) (consumerId : Nat) : Prop
    extends Due context dispatcher slots message consumerId where
  total : 0 < dispatcher.totalAvailablePermits
  ahead : ∀ other : StoredMessage, context.reader.getMessageEntryById other.messageId = some other →
    other.messageId ∈ dispatcher.redeliveryController.entries →
    other.messageId < message.messageId → context.reader.isAcknowledged other.messageId = true ∨
      dispatcher.redeliveryController.hasInFlightHash (hashOf context other) = true ∨
      dispatcher.selectConsumerForHash (hashOf context other) = none

variable {dispatcher : KeySharedDispatcher} {slots : ChannelSlots} {message : StoredMessage}
  {consumerId : Nat} (presents : Presents context.reader view) (clear : Clear dispatcher)
  (sound : Sound context.decode view dispatcher.toMultipleConsumers)
  (deliverable : Deliverable context dispatcher slots message consumerId)
include presents clear sound deliverable

theorem Deliverable.free : ∀ messageId, (messageId, hashOf context message) ∉
      dispatcher.redeliveryController.inFlightHashes.bindings := by
  intro messageId flies
  obtain ⟨other, member, rfl, isHash⟩ := sound.inFlight _ flies
  have pends := clear.awaited other.messageId (mem_of_binding flies)
  have stored := (presents.entry other.messageId other).mpr ⟨member, rfl⟩
  exact deliverable.idle other stored pends (Option.some.inj isHash).symm

theorem Deliverable.not_skipped (gone : ∀ messageId ∈ dropped, Gone view messageId)
    (listed : (message.messageId, queued) ∈ dispatcher.redeliveryController.entries.bindings) :
    ¬ Skipped context view dispatcher dispatcher.redeliveryController dropped
      (message.messageId, queued) := by
  obtain ⟨member, _⟩ := (presents.entry _ _).mp deliverable.stored
  have isHash := sound.queued_hash presents.lined member listed
  have unacked : ¬ view.acked message.messageId.slot := by
    rw [← presents.acknowledged, deliverable.unacked]
    exact Bool.false_ne_true
  rintro (isDropped | ⟨other, isOther, same, why⟩)
  · rcases gone _ isDropped with acked | missing
    · exact unacked acked
    · exact missing message member rfl
  have isMessage : other = message :=
    presents.lined.id_of_slot isOther member (congrArg MessageId.slot same)
  subst isMessage
  rw [isHash] at why
  rcases why with nobody | flies | ⟨later, _, _, flies⟩
  · obtain ⟨consumer, selected⟩ := deliverable.owner
    rw [selected] at nobody
    cases nobody
  · obtain ⟨holder, held⟩ := has_in_flight_hash_iff.mp flies
    exact deliverable.free presents clear sound holder (mem_sweep_in_flight.mp held).2
  · exact deliverable.free presents clear sound later flies

theorem Deliverable.popped_eq {redelivery after} (gone : ∀ messageId ∈ dropped,
      (∃ entry ∈ dispatcher.redeliveryController.queuedEntries, entry.1 = messageId) ∧
      Gone view messageId)
    (popped : Pops context view dispatcher dropped redelivery queued after) :
    redelivery.stored = message := by
  obtain ⟨member, _⟩ := (presents.entry _ _).mp deliverable.stored
  have isHash := sound.queued_hash presents.lined popped.member popped.listed
  have stored := (presents.entry redelivery.stored.messageId redelivery.stored).mpr
    ⟨popped.member, rfl⟩
  rcases lt_trichotomy redelivery.stored.messageId message.messageId with before | same | after
  · have isQueued : redelivery.stored.messageId ∈ dispatcher.redeliveryController.entries :=
      mem_of_binding popped.listed
    rcases deliverable.ahead redelivery.stored stored isQueued before with acked | flies | nobody
    · exact absurd ((presents.acknowledged _).mp acked) popped.unacked
    · -- dropping queued messages leaves the hashes in flight
      obtain ⟨holder, held⟩ := has_in_flight_hash_iff.mp flies
      have free := popped.free
      rw [isHash, Bool.eq_false_iff] at free
      refine absurd (has_in_flight_hash_iff.mpr ⟨holder, ?_⟩) free
      rw [mem_sweep_in_flight]
      refine ⟨fun isDropped => ?_, held⟩
      obtain ⟨⟨entry, isEntry, rfl⟩, _⟩ := gone holder isDropped
      exact clear.apart entry.1 (mem_of_binding isEntry) (mem_of_binding held)
    · have selected := popped.selected
      rw [isHash, nobody] at selected
      cases selected
  · exact presents.lined.id_of_slot popped.member member (congrArg MessageId.slot same)
  · obtain ⟨entry, isEntry⟩ := mem_iff.mp deliverable.queued
    exact absurd (popped.skipped _ isEntry after)
      (deliverable.not_skipped presents clear sound (fun messageId isDropped =>
        (gone messageId isDropped).2) isEntry)

variable (allOpen : AllOpen dispatcher.consumers)
include allOpen

theorem Deliverable.redelivers (batch : Batch)
    (isDispatcher : batch.dispatcher = dispatcher) (isSlots : batch.slots = slots) :
    ∃ redeliveryCount, (dispatchRedelivery context batch).state.delivered =
      batch.delivered ++ [⟨consumerId, message.messageId, message.metadata, redeliveryCount⟩] := by
  subst isDispatcher isSlots
  obtain ⟨dropped, walked⟩ := pop_dispatchable_spec presents batch.dispatcher
    batch.dispatcher.redeliveryController.queuedEntries
    batch.dispatcher.redeliveryController.entries.sorted
    batch.dispatcher.redeliveryController fun _ member => member
  unfold dispatchRedelivery popDispatchableRedeliveryMessage
  generalize popDispatchable context batch.dispatcher
    batch.dispatcher.redeliveryController.queuedEntries
    batch.dispatcher.redeliveryController = result at walked
  obtain ⟨answer, after⟩ := result
  cases answer with
  | none =>
    obtain ⟨entry, isEntry⟩ := mem_iff.mp deliverable.queued
    exact absurd ((walked.nothing rfl).2 _ isEntry)
      (deliverable.not_skipped presents clear sound (fun messageId isDropped =>
        (walked.gone messageId isDropped).2) isEntry)
  | some redelivery =>
    obtain ⟨queued, popped⟩ := walked.something redelivery rfl
    have isMessage := deliverable.popped_eq presents clear sound walked.gone popped
    have isHash := sound.queued_hash presents.lined popped.member popped.listed
    obtain ⟨consumer, selected⟩ := deliverable.owner
    have chosen := popped.selected
    rw [isHash, isMessage, selected] at chosen
    cases chosen
    obtain ⟨_, isConsumer, positive, writable⟩ := select_consumer_some selected
    let batchCount := messagesInBatch context.decode redelivery.stored.metadata
    let charged := { redelivery.consumer with
      availablePermits := wrapI32 (redelivery.consumer.availablePermits - batchCount) }
    have charges : redelivery.consumer.tryUsePermits batchCount = some charged := if_pos positive
    have sends : charged.sendMessageWithStickyHash redelivery.stored.messageId
        queued.redeliveryCount (some (queuedHash context queued redelivery.stored)) batch.slots =
          (true, _, _) := Consumer.send_eq writable (allOpen _ isConsumer) deliverable.room
    refine ⟨queued.redeliveryCount, ?_⟩
    simp only [redeliver, popped.entry, Option.getD_some, charges, sends, batchCount]
    rw [isMessage]
    rfl

theorem Deliverable.passes (ready : dispatcher.Ready view) (some : 0 < context.fuel)
    (delivered : List Delivery) :
    ∃ redeliveryCount, delivered ++
        [⟨consumerId, message.messageId, message.metadata, redeliveryCount⟩] <+:
      (dispatchMessages context ⟨dispatcher, slots, delivered, 0⟩).state.delivered := by
  let batch : Batch := {
    dispatcher := dispatcher
    slots := slots
    delivered := delivered
    progress := 0
    remainingDispatches :=
      (min dispatcher.totalAvailablePermits dispatcherMaxRoundRobinBatchSize).toNat }
  obtain ⟨redeliveryCount, isDelivered⟩ :=
    deliverable.redelivers presents clear sound allOpen batch rfl rfl
  let holds : Course → Prop := fun course =>
    delivered ++ [⟨consumerId, message.messageId, message.metadata, redeliveryCount⟩] <+:
      course.delivered
  have kept before after : Move context view before after → before.dispatcher.Ready view →
      holds before → holds after :=
    fun move _ earlier => earlier.trans move.delivered_extends
  have total := deliverable.total
  have positive : 0 < min dispatcher.totalAvailablePermits
      (dispatcherMaxRoundRobinBatchSize : Int) := by
    unfold dispatcherMaxRoundRobinBatchSize
    omega
  have redelivered : Holding view holds (dispatchRedelivery context batch).state.toPass := by
    refine ⟨(dispatch_redelivery_moves presents batch).ready ready, ?_⟩
    simp only [holds, isDelivered]
    exact prefix_refl _
  have passed : Holding view holds
      (dispatchMessages context ⟨dispatcher, slots, delivered, 0⟩).state := by
    apply Flow.rounds_state_of_first (Holding view holds) (next_batch_keeps presents kept) some
    apply next_batch_of_batch
    have goesOn : ¬ min dispatcher.totalAvailablePermits
        (dispatcherMaxRoundRobinBatchSize : Int) ≤ 0 := by omega
    simp only [dispatchMessagesBatch, goesOn, if_false]
    apply Flow.rounds_state_of_first (fun batch : Batch => Holding view holds batch.toPass)
      (dispatch_round_keeps presents kept) some
    apply dispatch_round_of_redelivery presents kept _ redelivered
    simp only [batch]
    omega
  exact ⟨redeliveryCount, passed.2⟩

end

variable {site : SubscriptionSite} {partition : Int} {keySharedPolicy : Option KeySharedPolicy}

/-- Nothing queued is in flight, everything in flight is pending, and a queued message
that can be delivered is delivered by the next pass. -/
def NotSelfBlocked (site : SubscriptionSite) (subscription : Subscription) : Prop :=
  ∀ dispatcher, subscription.dispatcher = some (.keyShared dispatcher) → Clear dispatcher ∧
    ∀ slots message consumerId,
      Deliverable (subscription.context site) dispatcher slots message consumerId →
      ∃ redeliveryCount, subscription.delivered ++
        [⟨consumerId, message.messageId, message.metadata, redeliveryCount⟩] <+:
          (subscription.handle site (.dispatch slots)).delivered

/-- A consumer gives back the message that it was handed. The channel is full when
it is to be delivered again. -/
def sampleReturned : List Subscription.Request :=
  [.publish [sampleItem], .addConsumer 5 [] 0 none, .flow 5 10, .dispatch [],
    .redeliver 5 [] [false]]

def sampleQueue (requests : List Subscription.Request) : KeySharedDispatcher :=
  match (samplePlay .keyShared requests).dispatcher with
  | some (.keyShared dispatcher) => dispatcher
  | _ => new none

theorem idle_of_nothing {context : DispatchContext} {dispatcher : KeySharedDispatcher}
    (nothing : ∀ consumer ∈ dispatcher.consumers.bindings,
      consumer.2.pendingAcks = OrderedMap.empty) {message : StoredMessage} :
    ∀ other : StoredMessage, context.reader.getMessageEntryById other.messageId = some other →
      dispatcher.Pends other.messageId → hashOf context other ≠ hashOf context message := by
  rintro other _ ⟨consumer, member, pending⟩
  rw [nothing consumer member] at pending
  exact absurd pending not_mem_empty

/-- A message that is due and that the next pass does not deliver. -/
def Missed (subscription : Subscription) (message : StoredMessage) : Prop :=
  ∃ dispatcher consumerId, subscription.dispatcher = some (.keyShared dispatcher) ∧
    Due (subscription.context sampleSite) dispatcher [] message consumerId ∧
    ∀ delivery ∈ (subscription.handle sampleSite (.dispatch [])).delivered.drop
      subscription.delivered.length, delivery.messageId ≠ message.messageId

/-- The message is given back twice. -/
def sampleStuck : List Subscription.Request :=
  [.publish [sampleItem], .addConsumer 5 [] 0 none, .flow 5 10, .dispatch [],
    .redeliver 5 [] [], .redeliver 5 [] []]

/-- The aggregate still lacks what the consumer that has left owed. -/
def sampleOwed : List Subscription.Request :=
  [.publish [sampleBatch], .addConsumer 5 [] 0 none, .flow 5 1, .dispatch [],
    .removeConsumer 5 [], .addConsumer 6 [] 0 none, .flow 6 5]

/-- There is one permit for two messages of different keys. -/
def sampleOutpaced : List Subscription.Request :=
  [.publish [sampleItem, { sampleItem with metadata := [50, 1, 99] }],
    .addConsumer 5 [] 0 none, .flow 5 2, .dispatch [], .redeliver 5 [] [], .flow 5 1]

end PulsarLite.Broker.KeySharedDispatcher
