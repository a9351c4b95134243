import Mathlib.Logic.Relation
import PulsarLite.Broker.KeySharedDispatcher

/-!
# What a KeyShared pass can do

A pass is a sequence of moves: entries are swept from the redelivery queue, the
read position advances, a queued message is handed over or put back, a message
that was read is queued, handed over or deferred. Every property of passes is
proved move by move.
-/

namespace PulsarLite.Broker

open Library Storage List Consumer RedeliveryController

def Gone (view : SubscriptionView) (messageId : MessageId) : Prop :=
  view.acked messageId.slot ∨ ∀ message ∈ view.messages, message.messageId ≠ messageId

namespace KeySharedDispatcher

variable (context : DispatchContext) (view : SubscriptionView)
  {result : Option DispatchableRedelivery × RedeliveryController}

def hashOf (message : StoredMessage) : Int :=
  stickyKeyHashFromMetadata context.decode message.metadata

/-- How many messages a stored entry counts for. -/
abbrev batchCount (message : StoredMessage) : Nat :=
  messagesInBatch context.decode message.metadata

def queuedHash (queued : PendingAck) (message : StoredMessage) : Int :=
  queued.stickyKeyHash.getD (hashOf context message)

/-- A walk over queued entries has passed one: it was dropped, its hash has no
consumer, or the hash was in flight, if only for a message that was dropped after it. -/
def Skipped (dispatcher : KeySharedDispatcher) (controller : RedeliveryController)
    (dropped : List MessageId) (queued : RedeliveryEntry) : Prop :=
  queued.1 ∈ dropped ∨ ∃ message ∈ view.messages, message.messageId = queued.1 ∧
    (dispatcher.selectConsumerForHash (queuedHash context queued.2 message) = none ∨
      (controller.sweep dropped).hasInFlightHash (queuedHash context queued.2 message) = true ∨
      ∃ later ∈ dropped, queued.1 < later ∧
        (later, queuedHash context queued.2 message) ∈ controller.inFlightHashes.bindings)

/-- The entry that a walk over queued entries takes out. -/
structure Popped (dispatcher : KeySharedDispatcher) (entries : List RedeliveryEntry)
    (controller : RedeliveryController) (dropped : List MessageId)
    (redelivery : DispatchableRedelivery) (queued : PendingAck) (after : RedeliveryController) :
    Prop where
  member : redelivery.stored ∈ view.messages
  unacked : ¬ view.acked redelivery.stored.messageId.slot
  listed : (redelivery.stored.messageId, queued) ∈ entries
  taken : (controller.sweep dropped).Taken redelivery.stored.messageId
    (queuedHash context queued redelivery.stored) queued after
  entry : redelivery.entry = (redelivery.stored.messageId,
    { queued with stickyKeyHash := some (queuedHash context queued redelivery.stored) })
  free : (controller.sweep dropped).hasInFlightHash
    (queuedHash context queued redelivery.stored) = false
  selected : dispatcher.selectConsumerForHash (queuedHash context queued redelivery.stored) =
    some (redelivery.consumerId, redelivery.consumer)
  skipped : ∀ other ∈ entries, other.1 < redelivery.stored.messageId →
    Skipped context view dispatcher controller dropped other

/-- The walk is over everything that a dispatcher has queued. -/
abbrev Pops (dispatcher : KeySharedDispatcher) (dropped : List MessageId)
    (redelivery : DispatchableRedelivery) (queued : PendingAck) (after : RedeliveryController) :
    Prop :=
  Popped context view dispatcher dispatcher.redeliveryController.queuedEntries
    dispatcher.redeliveryController dropped redelivery queued after

variable {context view} {dispatcher : KeySharedDispatcher} {controller swept : RedeliveryController}
  {passed dropped : List MessageId}

theorem Skipped.extend {queued} (skipped : Skipped context view dispatcher swept dropped queued)
    (sweeps : swept = controller.sweep passed) :
    Skipped context view dispatcher controller (passed ++ dropped) queued := by
  have split : controller.sweep (passed ++ dropped) = swept.sweep dropped := by
    rw [sweeps]
    exact List.foldl_append
  rcases skipped with isDropped | ⟨message, member, same, why⟩
  · exact .inl (mem_append_right _ isDropped)
  refine .inr ⟨message, member, same, ?_⟩
  rw [split]
  rcases why with none | inFlight | ⟨later, isDropped, beyond, inFlight⟩
  · exact .inl none
  · exact .inr (.inl inFlight)
  · refine .inr (.inr ⟨later, mem_append_right _ isDropped, beyond, ?_⟩)
    rw [sweeps, mem_sweep_in_flight] at inFlight
    exact inFlight.2

variable {first : RedeliveryEntry} {rest : List RedeliveryEntry}

theorem Popped.cons {redelivery queued after}
    (popped : Popped context view dispatcher rest swept dropped redelivery queued after)
    (sweeps : swept = controller.sweep passed)
    (skipped : Skipped context view dispatcher controller (passed ++ dropped) first) :
    Popped context view dispatcher (first :: rest) controller (passed ++ dropped) redelivery
      queued after := by
  have split : controller.sweep (passed ++ dropped) = swept.sweep dropped := by
    rw [sweeps]
    exact List.foldl_append
  refine ⟨popped.member, popped.unacked, List.mem_cons_of_mem _ popped.listed, ?_, popped.entry,
    ?_, popped.selected, ?_⟩
  · rw [split]
    exact popped.taken
  · rw [split]
    exact popped.free
  · intro other isOther before
    rcases mem_cons.mp isOther with rfl | isOther
    · exact skipped
    · exact (popped.skipped other isOther before).extend sweeps

/-- The outcome of a walk over queued entries: what it drops, and what it takes. -/
structure Walked (context : DispatchContext) (view : SubscriptionView)
    (dispatcher : KeySharedDispatcher) (entries : List RedeliveryEntry)
    (controller : RedeliveryController) (dropped : List MessageId)
    (result : Option DispatchableRedelivery × RedeliveryController) : Prop where
  gone : ∀ messageId ∈ dropped, (∃ entry ∈ entries, entry.1 = messageId) ∧ Gone view messageId
  nothing : result.1 = none → result.2 = controller.sweep dropped ∧
    ∀ other ∈ entries, Skipped context view dispatcher controller dropped other
  something : ∀ redelivery, result.1 = some redelivery → ∃ queued,
    Popped context view dispatcher entries controller dropped redelivery queued result.2

theorem Walked.cons (walked : Walked context view dispatcher rest swept dropped result)
    (sweeps : swept = controller.sweep passed)
    (gone : ∀ messageId ∈ passed, first.1 = messageId ∧ Gone view messageId)
    (skipped : Skipped context view dispatcher controller (passed ++ dropped) first) :
    Walked context view dispatcher (first :: rest) controller (passed ++ dropped) result := by
  constructor
  · intro messageId isDropped
    rcases mem_append.mp isDropped with isPassed | isDropped
    · obtain ⟨same, isGone⟩ := gone messageId isPassed
      exact ⟨⟨first, mem_cons_self, same⟩, isGone⟩
    · obtain ⟨⟨entry, member, same⟩, isGone⟩ := walked.gone messageId isDropped
      exact ⟨⟨entry, mem_cons_of_mem _ member, same⟩, isGone⟩
  · intro none
    obtain ⟨isSwept, others⟩ := walked.nothing none
    constructor
    · rw [isSwept, sweeps]
      exact foldl_append.symm
    · intro other isOther
      rcases mem_cons.mp isOther with rfl | isOther
      · exact skipped
      · exact (others other isOther).extend sweeps
  · intro redelivery isSome
    obtain ⟨queued, popped⟩ := walked.something redelivery isSome
    exact ⟨queued, popped.cons sweeps skipped⟩

theorem Walked.skip {dispatcher first rest controller dropped}
    (walked : Walked context view dispatcher rest controller dropped result)
    (ahead : ∀ entry ∈ rest, first.1 < entry.1) {message} (member : message ∈ view.messages)
    (same : message.messageId = first.1)
    (why : dispatcher.selectConsumerForHash (queuedHash context first.2 message) = none ∨
      controller.hasInFlightHash (queuedHash context first.2 message) = true) :
    Walked context view dispatcher (first :: rest) controller dropped result := by
  have skipped : Skipped context view dispatcher controller dropped first := by
    refine .inr ⟨message, member, same, ?_⟩
    rcases why with none | inFlight
    · exact .inl none
    obtain ⟨holder, held⟩ := has_in_flight_hash_iff.mp inFlight
    by_cases isDropped : holder ∈ dropped
    · obtain ⟨⟨entry, inRest, isHolder⟩, _⟩ := walked.gone holder isDropped
      exact .inr (.inr ⟨holder, isDropped, isHolder ▸ ahead entry inRest, held⟩)
    · refine .inr (.inl (has_in_flight_hash_iff.mpr ⟨holder, ?_⟩))
      rw [mem_sweep_in_flight]
      exact ⟨isDropped, held⟩
  have nothingPassed : ∀ messageId ∈ ([] : List MessageId), first.1 = messageId ∧
      Gone view messageId := by simp
  have extended : Walked context view dispatcher (first :: rest) controller ([] ++ dropped)
      result := walked.cons rfl nothingPassed skipped
  exact extended

theorem pop_dispatchable_spec (presents : Presents context.reader view) (dispatcher entries)
    (sorted : entries.Pairwise fun left right => left.1 < right.1) (controller)
    (queued : ∀ entry ∈ entries, entry ∈ controller.entries.bindings) :
    ∃ dropped, Walked context view dispatcher entries controller dropped
      (popDispatchable context dispatcher entries controller) := by
  induction entries generalizing controller with
  | nil => exact ⟨[], by simp, fun _ => ⟨rfl, by simp⟩, by simp [popDispatchable]⟩
  | cons first rest ih =>
    obtain ⟨ahead, sorted⟩ := pairwise_cons.mp sorted
    have isQueued := queued first mem_cons_self
    have inRest entry (member : entry ∈ rest) : entry ∈ controller.entries.bindings :=
      queued entry (mem_cons_of_mem _ member)
    have drops : Gone view first.1 → ∃ dropped,
        Walked context view dispatcher (first :: rest) controller dropped
          (popDispatchable context dispatcher rest (controller.remove first.1)) := by
      intro gone
      have remain : ∀ entry ∈ rest, entry ∈ (controller.remove first.1).entries.bindings := by
        intro entry member
        rw [mem_remove_entries]
        exact ⟨(ahead entry member).ne', inRest entry member⟩
      obtain ⟨dropped, walked⟩ := ih sorted (controller.remove first.1) remain
      refine ⟨[first.1] ++ dropped, walked.cons rfl ?_ (.inl mem_cons_self)⟩
      intro messageId isFirst
      rw [mem_singleton.mp isFirst]
      exact ⟨rfl, gone⟩
    by_cases acked : context.reader.isAcknowledged first.1 = true
    · simp only [popDispatchable, acked, if_true]
      exact drops (.inl ((presents.acknowledged _).mp acked))
    rw [popDispatchable, if_neg acked]
    cases found : context.reader.getMessageEntryById first.1 with
    | none =>
      apply drops
      refine .inr fun message member same => ?_
      rw [(presents.entry first.1 message).mpr ⟨member, same⟩] at found
      cases found
    | some stored =>
      obtain ⟨member, same⟩ := (presents.entry first.1 stored).mp found
      obtain ⟨dropped, walked⟩ := ih sorted controller inRest
      dsimp only
      by_cases inFlight : controller.hasInFlightHash (queuedHash context first.2 stored) = true
      · rw [queuedHash, hashOf] at inFlight
        rw [if_pos inFlight]
        exact ⟨dropped, walked.skip ahead member same (.inr inFlight)⟩
      rw [queuedHash, hashOf] at inFlight
      rw [if_neg inFlight]
      cases selected : dispatcher.selectConsumerForHash
          (first.2.stickyKeyHash.getD (stickyKeyHashFromMetadata context.decode
            stored.metadata)) with
      | none => exact ⟨dropped, walked.skip ahead member same (.inl selected)⟩
      | some owner =>
        obtain ⟨consumerId, consumer⟩ := owner
        have took : ∃ after, controller.takeForDeliveryWithHash first.1 (some
            (queuedHash context first.2 stored)) = (some (first.1, { first.2 with
              stickyKeyHash := some (queuedHash context first.2 stored) }), after) ∧
            controller.Taken first.1 (queuedHash context first.2 stored) first.2 after := by
          apply take_queued isQueued
          cases isHash : first.2.stickyKeyHash with
          | none => exact .inl rfl
          | some hash => simp [queuedHash, isHash]
        obtain ⟨after, isTaken, taken⟩ := took
        rw [queuedHash, hashOf] at isTaken
        simp only [isTaken]
        refine ⟨[], by simp, nofun, ?_⟩
        rintro redelivery ⟨⟩
        refine ⟨first.2, member, ?_, ?_, ?_, ?_, ?_, selected, ?_⟩
        · exact fun isAcked => acked ((presents.acknowledged _).mpr (same ▸ isAcked))
        · rw [same]
          exact mem_cons_self
        · rw [same]
          exact taken
        · rw [same]
          rfl
        · exact Bool.eq_false_iff.mpr inFlight
        · intro other isOther before
          rcases mem_cons.mp isOther with rfl | isOther
          · exact absurd (same ▸ before) (lt_irrefl _)
          · exact absurd (same ▸ before) (ahead other isOther).not_gt

structure Course where
  dispatcher : KeySharedDispatcher
  delivered : List Delivery

/-- A message that was read from the read position on, and is not pending. -/
structure Offered (view : SubscriptionView) (dispatcher : KeySharedDispatcher)
    (candidate : ReadCandidate) (message : StoredMessage) : Prop
    extends dispatcher.Offers view candidate message where
  idle : ¬ dispatcher.Pends message.messageId

inductive Move (context : DispatchContext) (view : SubscriptionView) : Course → Course → Prop
  | swept (course dropped) (gone : ∀ messageId ∈ dropped, Gone view messageId) :
      Move context view course { course with
        dispatcher := { course.dispatcher with
          redeliveryController := course.dispatcher.redeliveryController.sweep dropped } }
  | advanced (course readPosition)
      (reached : ∀ settled, course.dispatcher.Settles view settled →
        ∀ position, readPosition = some position → Reached view settled position) :
      Move context view course { course with
        dispatcher := { course.dispatcher with readPosition := readPosition } }
  | redelivered (course dropped redelivery queued after)
      (gone : ∀ messageId ∈ dropped, Gone view messageId)
      (popped : Pops context view course.dispatcher dropped redelivery queued after)
      (permits total)
      (charged : permits =
        wrapI32 (redelivery.consumer.availablePermits - batchCount context redelivery.stored))
      (isTotal : total = (course.dispatcher.subtractTotalPermits
        (batchCount context redelivery.stored)).totalAvailablePermits) :
      Move context view course {
        dispatcher := { course.dispatcher with
          consumers := course.dispatcher.consumers.insert redelivery.consumerId {
            redelivery.consumer with
            availablePermits := permits
            pendingAcks := redelivery.consumer.pendingAcks.insert redelivery.stored.messageId
              ⟨queued.redeliveryCount, some (queuedHash context queued redelivery.stored)⟩ }
          totalAvailablePermits := total
          redeliveryController := after }
        delivered := course.delivered ++ [⟨redelivery.consumerId, redelivery.stored.messageId,
          redelivery.stored.metadata, queued.redeliveryCount⟩] }
  | restored (course dropped redelivery queued after)
      (gone : ∀ messageId ∈ dropped, Gone view messageId)
      (popped : Pops context view course.dispatcher dropped redelivery queued after)
      (redeliveryCount unsent total)
      (bounced : Consumer.Bounced redelivery.consumer redelivery.stored.messageId unsent)
      (refunded : unsent.availablePermits =
        wrapI32 (wrapI32 (redelivery.consumer.availablePermits -
          batchCount context redelivery.stored) + batchCount context redelivery.stored))
      (isTotal : total = ((course.dispatcher.subtractTotalPermits
        (batchCount context redelivery.stored)).addTotalPermits
          (batchCount context redelivery.stored)).totalAvailablePermits) :
      Move context view course { course with
        dispatcher := { course.dispatcher with
          consumers := course.dispatcher.consumers.insert redelivery.consumerId unsent
          totalAvailablePermits := total
          redeliveryController := after.restore (redelivery.stored.messageId,
            ⟨redeliveryCount, some (queuedHash context queued redelivery.stored)⟩) } }
  | blocked (course candidate message)
      (offered : Offered view course.dispatcher candidate message) :
      Move context view course { course with
        dispatcher := { course.dispatcher with
          readPosition := some candidate.nextPosition
          redeliveryController := course.dispatcher.redeliveryController.add
            (message.messageId, ⟨0, some (hashOf context message)⟩) } }
  | handed (course candidate message) (offered : Offered view course.dispatcher candidate message)
      (free : course.dispatcher.redeliveryController.isHashBlocked (hashOf context message) = false)
      (consumerId consumer)
      (selected : course.dispatcher.selectConsumerForHash (hashOf context message) =
        some (consumerId, consumer))
      (permits total)
      (charged : permits = wrapI32 (consumer.availablePermits - batchCount context message))
      (isTotal : total = (course.dispatcher.subtractTotalPermits
        (batchCount context message)).totalAvailablePermits) :
      Move context view course {
        dispatcher := { course.dispatcher with
          consumers := course.dispatcher.consumers.insert consumerId { consumer with
            availablePermits := permits
            pendingAcks := consumer.pendingAcks.insert message.messageId
              ⟨0, some (hashOf context message)⟩ }
          totalAvailablePermits := total
          readPosition := some candidate.nextPosition }
        delivered := course.delivered ++
          [⟨consumerId, message.messageId, message.metadata, 0⟩] }
  | deferred (course candidate message) (offered : Offered view course.dispatcher candidate message)
      (consumerId consumer unsent total)
      (selected : course.dispatcher.selectConsumerForHash (hashOf context message) =
        some (consumerId, consumer))
      (bounced : Consumer.Bounced consumer message.messageId unsent)
      (refunded : unsent.availablePermits = wrapI32 (wrapI32 (consumer.availablePermits -
        batchCount context message) + batchCount context message))
      (isTotal : total = ((course.dispatcher.subtractTotalPermits
        (batchCount context message)).addTotalPermits
          (batchCount context message)).totalAvailablePermits) :
      Move context view course { course with
        dispatcher := { course.dispatcher with
          consumers := course.dispatcher.consumers.insert consumerId unsent
          totalAvailablePermits := total
          readPosition := some candidate.nextPosition
          redeliveryController := course.dispatcher.redeliveryController.restore
            (message.messageId, ⟨1, some (hashOf context message)⟩) } }

theorem select_consumer_some {hash : Int} {consumerId : Nat} {consumer : Consumer}
    (selected : dispatcher.selectConsumerForHash hash = some (consumerId, consumer)) :
    (∃ assignment ∈ dispatcher.activeAssignments, assignment.2 = consumerId ∧
      assignment.1.start ≤ hash ∧ hash ≤ assignment.1.stop) ∧
    (consumerId, consumer) ∈ dispatcher.consumers.bindings ∧ 0 < consumer.availablePermits ∧
      consumer.isWritable = true := by
  obtain ⟨assignment, member, found⟩ := exists_of_findSome?_eq_some selected
  split_ifs at found with inRange
  obtain ⟨other, isOther, chosen⟩ := Option.bind_eq_some_iff.mp found
  split_ifs at chosen with available
  cases chosen
  refine ⟨⟨assignment, member, rfl, inRange⟩, OrderedMap.find_eq_some.mp isOther, ?_, available.2⟩
  have positive := available.1
  unfold availablePermitsNow at positive
  omega

theorem Move.ready {before after : Course} (move : Move context view before after)
    (ready : before.dispatcher.Ready view) : after.dispatcher.Ready view := by
  cases move with
  | swept => exact ready
  | advanced readPosition advances =>
    exact fun position isPosition => (advances _ ready.settles position isPosition).readable
  | redelivered | restored => exact ready
  | blocked candidate message offered | handed candidate message offered
  | deferred candidate message offered =>
    rintro position ⟨⟩
    exact offered.readable

def Batch.course (batch : Batch) : Course := ⟨batch.dispatcher, batch.delivered⟩

theorem dispatch_redelivery_moves (presents : Presents context.reader view) (batch : Batch) :
    Move context view batch.course (dispatchRedelivery context batch).state.course := by
  obtain ⟨dropped, walked⟩ := pop_dispatchable_spec presents batch.dispatcher
    batch.dispatcher.redeliveryController.queuedEntries
    batch.dispatcher.redeliveryController.entries.sorted
    batch.dispatcher.redeliveryController fun _ member => member
  have gone messageId (isDropped : messageId ∈ dropped) : Gone view messageId :=
    (walked.gone messageId isDropped).2
  unfold dispatchRedelivery popDispatchableRedeliveryMessage
  generalize popDispatchable context batch.dispatcher
    batch.dispatcher.redeliveryController.queuedEntries
    batch.dispatcher.redeliveryController = result at walked
  obtain ⟨answer, after⟩ := result
  cases answer with
  | none =>
    have swept : after = _ := (walked.nothing rfl).1
    subst swept
    exact Move.swept batch.course dropped gone
  | some redelivery =>
    obtain ⟨queued, popped⟩ := walked.something redelivery rfl
    have entry := popped.entry
    obtain ⟨charged, isCharged, sent, sentTo, left, sending, delivered, bounced⟩ :=
      send_charged (select_consumer_some popped.selected).2.2.1
        (messagesInBatch context.decode redelivery.stored.metadata)
        redelivery.stored.messageId queued.redeliveryCount
        (some (queuedHash context queued redelivery.stored)) batch.slots
    simp only [redeliver, entry, Option.getD_some, isCharged, sending]
    cases sent with
    | true =>
      have isSent := delivered rfl
      subst isSent
      exact Move.redelivered batch.course dropped redelivery queued after gone popped _ _ rfl rfl
    | false =>
      obtain ⟨bounces, refunded⟩ := bounced rfl
      exact Move.restored batch.course dropped redelivery queued after gone popped _ _ _
        bounces refunded rfl

theorem is_message_pending_iff {messageId : MessageId} :
    dispatcher.isMessagePending messageId = true ↔ dispatcher.Pends messageId := by
  simp [isMessagePending, MultipleConsumers.Pends, Held, hasPendingAck]

variable {batch : Batch}

theorem dispatch_candidate_moves {readPosition} {candidate message}
    (advances : Move context view batch.course
      { batch.course with dispatcher := { batch.dispatcher with readPosition := readPosition } })
    (offered : Offered view batch.dispatcher candidate message) :
    Move context view batch.course (dispatchCandidate context candidate { batch with
      dispatcher := { batch.dispatcher with readPosition := readPosition } }).state.course := by
  have isHash : stickyKeyHashFromMetadata context.decode candidate.metadata =
      hashOf context message := by
    rw [offered.metadata, hashOf]
  have choice : selectConsumerForHash { batch.dispatcher with readPosition := readPosition }
      (hashOf context message) = batch.dispatcher.selectConsumerForHash (hashOf context message) :=
    rfl
  simp only [dispatchCandidate, isHash, offered.messageId, choice]
  split_ifs with blocked
  · exact Move.blocked batch.course candidate message offered
  cases selected : batch.dispatcher.selectConsumerForHash (hashOf context message) with
  | none => exact advances
  | some owner =>
    obtain ⟨consumerId, consumer⟩ := owner
    obtain ⟨charged, isCharged, sent, after, left, sending, delivered, bounced⟩ :=
      send_charged (select_consumer_some selected).2.2.1
        (messagesInBatch context.decode message.metadata) message.messageId 0
        (some (hashOf context message)) batch.slots
    rw [offered.metadata]
    simp only [isCharged, sending]
    cases sent with
    | true =>
      have isSent := delivered rfl
      subst isSent
      exact Move.handed batch.course candidate message offered
        (Bool.eq_false_iff.mpr blocked) consumerId consumer selected _ _ rfl rfl
    | false =>
      obtain ⟨bounces, refunded⟩ := bounced rfl
      exact Move.deferred batch.course candidate message offered consumerId consumer _ _
        selected bounces refunded rfl

theorem dispatch_new_moves (presents : Presents context.reader view) (batch : Batch)
    (ready : batch.dispatcher.Ready view) :
    Move context view batch.course (dispatchNew context batch).state.course := by
  have pending messageId : batch.dispatcher.isMessagePending messageId = true →
      batch.dispatcher.Pends messageId := is_message_pending_iff.mp
  have reached settled (settles : batch.dispatcher.Settles view settled) :=
    settles.read presents pending context.fuel context.fuel
  have offers := ready.offers presents pending context.fuel context.fuel
  unfold dispatchNew
  generalize nextDispatchableMessage context.reader batch.dispatcher.isMessagePending context.fuel
    context.fuel batch.dispatcher.readPosition = found at reached offers
  obtain ⟨result, readPosition⟩ := found
  have advances : Move context view batch.course { batch.course with
      dispatcher := { batch.dispatcher with readPosition := readPosition } } :=
    .advanced batch.course readPosition reached
  cases result with
  | error failure => exact advances
  | ok answer =>
    cases answer with
    | none => exact advances
    | some candidate =>
      obtain ⟨idle, message, offered⟩ := offers candidate rfl
      refine dispatch_candidate_moves advances ⟨offered, ?_⟩
      rw [← offered.messageId, ← is_message_pending_iff, idle]
      exact Bool.false_ne_true

variable {holds : Course → Prop}

/-- Between the moves of a pass: a property, and a read position to read from. -/
def Holding (view : SubscriptionView) (holds : Course → Prop) (pass : Pass KeySharedDispatcher) :
    Prop :=
  pass.dispatcher.Ready view ∧ holds ⟨pass.dispatcher, pass.delivered⟩

variable (presents : Presents context.reader view)
  (kept : ∀ before after, Move context view before after → before.dispatcher.Ready view →
    holds before → holds after)
include kept in
theorem Holding.move {before after : Batch} (between : Holding view holds before.toPass)
    (move : Move context view before.course after.course) : Holding view holds after.toPass :=
  ⟨move.ready between.1, kept _ _ move between.1 between.2⟩

include presents kept

theorem dispatch_round_of_redelivery (some : batch.remainingDispatches ≠ 0)
    (redelivered : Holding view holds (dispatchRedelivery context batch).state.toPass) :
    Holding view holds (dispatchRound context batch).state.toPass := by
  rw [dispatchRound, if_neg some]
  apply Flow.and_then_state fun batch : Batch => Holding view holds batch.toPass
  · exact redelivered
  · exact fun middle between => between.move kept (dispatch_new_moves presents middle between.1)

theorem dispatch_round_keeps (batch : Batch) (before : Holding view holds batch.toPass) :
    Holding view holds (dispatchRound context batch).state.toPass := by
  by_cases nothing : batch.remainingDispatches = 0
  · rw [dispatchRound, if_pos nothing]
    exact before
  · exact dispatch_round_of_redelivery presents kept nothing
      (before.move kept (dispatch_redelivery_moves presents batch))

theorem next_batch_keeps (pass) (before : Holding view holds pass) :
    Holding view holds (nextBatch context pass).state :=
  next_batch_keeps_rounds pass (fun _ between => between) (dispatch_round_keeps presents kept)
    before

theorem dispatch_messages_keeps (pass) (before : Holding view holds pass) :
    Holding view holds (dispatchMessages context pass).state :=
  Flow.rounds_state (Holding view holds) (next_batch_keeps presents kept) _ before

end KeySharedDispatcher

end PulsarLite.Broker
