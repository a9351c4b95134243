import PulsarLite.Broker.KeySharedPass
import PulsarLite.Broker.SharedDispatcher

/-!
# What a pass does to many consumers

Whether Shared or KeyShared, a pass takes three kinds of steps on what the two
dispatchers have in common: the read position or the queue is adjusted, a message is
handed to a consumer with permits, or a message bounces off such a consumer and is
queued. What every step keeps, a pass of either dispatcher keeps. What one round of the
Shared dispatcher comes to is said before, with the reasons for which it may hand out
nothing.
-/

namespace PulsarLite.Broker

open Library Storage List Consumer OrderedMap Option RedeliveryController

structure Stage where
  common : MultipleConsumers
  delivered : List Delivery

namespace Stage

variable {accounted : MessageId → Prop}

/-- The aggregate after an entry was paid for. Shared wraps around, KeyShared stays
at the least value. -/
def Charged (stage : Stage) (batchCount : Nat) (total : Int) : Prop :=
  total = (stage.common.chargeTotalPermits batchCount).totalAvailablePermits ∨
    total = (stage.common.subtractTotalPermits batchCount).totalAvailablePermits

variable (view : SubscriptionView) (stage : Stage)

/-- The read position may be moved, if these messages are accounted for. -/
def Advances (accounted : MessageId → Prop) (readPosition : Option ManagedLedgerPosition) : Prop :=
  ∀ settled, stage.common.Settles view settled →
    (∀ messageId, accounted messageId → settled messageId) →
      ∀ position, readPosition = some position → Reached view settled position

/-- The queue may be changed: what it loses is gone or meets the condition. -/
def Requeues (taken : MessageId → Prop) (controller : RedeliveryController) : Prop :=
  ∀ messageId ∈ stage.common.redeliveryController.entries,
    Gone view messageId ∨ taken messageId ∨ messageId ∈ controller.entries

inductive Step (decode : Decode) (view : SubscriptionView) : Stage → Stage → Prop
  | adjusted (stage readPosition controller)
      (advances : stage.Advances view (· ∈ controller.entries) readPosition)
      (requeues : stage.Requeues view (fun _ => False) controller) :
      Step decode view stage { stage with
        common := { stage.common with
          readPosition := readPosition
          redeliveryController := controller } }
  | handed (stage message consumerId consumer pending total readPosition controller redeliveryCount)
      (stored : message ∈ view.messages)
      (member : (consumerId, consumer) ∈ stage.common.consumers.bindings)
      (positive : 0 < consumer.availablePermits)
      (charged : stage.Charged (messagesInBatch decode message.metadata) total)
      (advances : stage.Advances view (· = message.messageId) readPosition)
      (requeues : stage.Requeues view (· = message.messageId) controller) :
      Step decode view stage {
        common := {
          consumers := stage.common.consumers.insert consumerId { consumer with
            availablePermits := wrapI32 (consumer.availablePermits -
              messagesInBatch decode message.metadata)
            pendingAcks := consumer.pendingAcks.insert message.messageId pending }
          totalAvailablePermits := total
          readPosition := readPosition
          redeliveryController := controller }
        delivered := stage.delivered ++
          [⟨consumerId, message.messageId, message.metadata, redeliveryCount⟩] }
  | bounced (stage message consumerId consumer unsent charge readPosition controller)
      (stored : message ∈ view.messages)
      (member : (consumerId, consumer) ∈ stage.common.consumers.bindings)
      (positive : 0 < consumer.availablePermits)
      (charged : stage.Charged (messagesInBatch decode message.metadata) charge)
      (bounces : Consumer.Bounced consumer message.messageId unsent)
      (refunded : unsent.availablePermits = wrapI32 (wrapI32 (consumer.availablePermits -
        messagesInBatch decode message.metadata) + messagesInBatch decode message.metadata))
      (advances : stage.Advances view (· = message.messageId) readPosition)
      (requeues : stage.Requeues view (· = message.messageId) controller)
      (queued : message.messageId ∈ controller.entries) :
      Step decode view stage { stage with
        common := {
          consumers := stage.common.consumers.insert consumerId unsent
          totalAvailablePermits := wrapI32 (charge + messagesInBatch decode message.metadata)
          readPosition := readPosition
          redeliveryController := controller } }

variable {decode : Decode} {view : SubscriptionView} {stage : Stage}

theorem Advances.ready {readPosition}
    (advances : stage.Advances view accounted readPosition) (ready : stage.common.Ready view) :
    ∀ position, readPosition = some position → view.Readable position :=
  fun position isPosition =>
    (advances _ ready.settles (fun _ _ => trivial) position isPosition).readable

theorem Advances.stay (accounted : MessageId → Prop) :
    stage.Advances view accounted stage.common.readPosition :=
  fun _ settles _ => settles.reached

theorem Requeues.stay (taken : MessageId → Prop) :
    stage.Requeues view taken stage.common.redeliveryController :=
  fun _ member => .inr (.inr member)

theorem Step.refl (stage : Stage) : Step decode view stage stage :=
  .adjusted stage stage.common.readPosition stage.common.redeliveryController (.stay _) (.stay _)

theorem Step.ready {after : Stage} (step : Step decode view stage after)
    (ready : stage.common.Ready view) : after.common.Ready view := by
  cases step with
  | adjusted readPosition controller advances | handed _ _ _ _ _ _ _ _ _ _ _ _ advances
  | bounced _ _ _ _ _ _ _ _ _ _ _ _ _ advances => exact advances.ready ready

theorem advances_candidate {candidate message} (lined : view.Lined)
    (offers : stage.common.Offers view candidate message)
    (isAccounted : accounted message.messageId) :
    stage.Advances view accounted (some candidate.nextPosition) := by
  rintro settled settles accounts position ⟨⟩
  exact (offers.isCandidate settled settles).reached lined
    (.inr (accounts message.messageId isAccounted))

end Stage

namespace KeySharedDispatcher

variable {context : DispatchContext} {view : SubscriptionView}

def Course.stage (course : Course) : Stage :=
  ⟨course.dispatcher.toMultipleConsumers, course.delivered⟩

theorem Popped.requeues {course : Course} {dropped redelivery queued after}
    (popped : Popped context view course.dispatcher
      course.dispatcher.redeliveryController.queuedEntries course.dispatcher.redeliveryController
      dropped redelivery queued after)
    (gone : ∀ messageId ∈ dropped, Gone view messageId) :
    course.stage.Requeues view (· = redelivery.stored.messageId) after := by
  intro messageId member
  by_cases isDropped : messageId ∈ dropped
  · exact .inl (gone messageId isDropped)
  · rw [or_iff_not_imp_left, or_iff_not_imp_left]
    intro _ different
    rw [popped.taken.entries, mem_erase, mem_sweep]
    exact ⟨different, isDropped, member⟩

theorem Move.step (lined : view.Lined) {before after : Course}
    (move : Move context view before after) :
    Stage.Step context.decode view before.stage after.stage := by
  cases move with
  | swept dropped gone =>
    apply Stage.Step.adjusted before.stage _ _ (Stage.Advances.stay _)
    intro messageId member
    by_cases isDropped : messageId ∈ dropped
    · exact .inl (gone messageId isDropped)
    · exact .inr (.inr (mem_sweep.mpr ⟨isDropped, member⟩))
  | advanced readPosition reached =>
    apply Stage.Step.adjusted before.stage _ _ _ (Stage.Requeues.stay _)
    exact fun settled settles _ => reached settled settles
  | redelivered dropped redelivery queued after gone popped permits total charged isTotal =>
    subst charged
    obtain ⟨_, member, positive, _⟩ := select_consumer_some popped.selected
    exact Stage.Step.handed before.stage redelivery.stored _ _ _ _ _ _ _ popped.member member
      positive (.inr isTotal) (Stage.Advances.stay _) (popped.requeues gone)
  | restored dropped redelivery queued after gone popped count unsent total bounced refunded
      isTotal =>
      subst isTotal
      obtain ⟨_, member, positive, _⟩ := select_consumer_some popped.selected
      apply Stage.Step.bounced before.stage redelivery.stored _ _ _ _ _ _ popped.member member
        positive (.inr rfl) bounced refunded (Stage.Advances.stay _)
      · intro messageId isQueued
        refine (popped.requeues gone messageId isQueued).imp_right fun kept => kept.imp_right ?_
        exact fun kept => mem_restore.mpr (.inr kept)
      · exact mem_restore.mpr (.inl rfl)
  | blocked candidate message offered =>
    apply Stage.Step.adjusted before.stage
    · exact Stage.advances_candidate lined offered.toOffers (mem_add.mpr (.inl rfl))
    · exact fun messageId member =>
        .inr (.inr (mem_add.mpr (.inr member)))
  | handed candidate message offered free consumerId consumer selected permits total charged
      isTotal =>
      subst charged
      obtain ⟨_, member, positive, _⟩ := select_consumer_some selected
      exact Stage.Step.handed before.stage message _ _ _ _ _ _ _ offered.member member positive
        (.inr isTotal) (Stage.advances_candidate lined offered.toOffers rfl)
        (Stage.Requeues.stay _)
  | deferred candidate message offered consumerId consumer unsent total selected bounced refunded
      isTotal =>
      subst isTotal
      obtain ⟨_, member, positive, _⟩ := select_consumer_some selected
      apply Stage.Step.bounced before.stage message _ _ _ _ _ _ offered.member member positive
        (.inr rfl) bounced refunded (Stage.advances_candidate lined offered.toOffers rfl)
      · exact fun messageId member =>
          .inr (.inr (mem_restore.mpr (.inr member)))
      · exact mem_restore.mpr (.inl rfl)

end KeySharedDispatcher

namespace SharedDispatcher

variable {consumers part : List (Nat × Consumer)} {currentIndex index offset : Nat}
  {targetPriority : Int}

def Available (consumers : List (Nat × Consumer)) (index : Nat) : Prop :=
  ∃ consumer, consumers[index]? = some consumer ∧ 0 < consumer.2.availablePermits

theorem available_of_search
    (places : ∀ index consumer, part[index]? = some consumer →
      consumers[offset + index]? = some consumer)
    (found : (part.findIdx? fun consumer => decide (0 < consumer.2.availablePermits)) =
      some index) :
    Available consumers (offset + index) := by
  obtain ⟨inside, positive, _⟩ := findIdx?_eq_some_iff_getElem.mp found
  exact ⟨part[index], places index _ (getElem?_eq_getElem inside), of_decide_eq_true positive⟩

theorem higher_priority_available
    (found : findAvailableConsumerFromHigherPriority consumers currentIndex targetPriority =
      some index) :
    Available consumers index := by
  rw [← Nat.zero_add index]
  apply available_of_search _ found
  intro place consumer isConsumer
  rw [Nat.zero_add]
  have before : (consumers.take currentIndex).takeWhile (fun consumer =>
      decide (consumer.2.priorityLevel < targetPriority)) <+: consumers :=
    (List.takeWhile_prefix _).trans (List.take_prefix _ _)
  obtain ⟨inside, rfl⟩ := List.getElem?_eq_some_iff.mp isConsumer
  exact List.prefix_iff_getElem?.mp before place inside

theorem scan_available (fuel scanIndex endPriorityLevelIndex : Nat)
    (found : scanPriorityLevel consumers targetPriority currentIndex fuel scanIndex
      endPriorityLevelIndex = .inl (some index)) :
    Available consumers index := by
  induction fuel generalizing scanIndex endPriorityLevelIndex with
  | zero => cases found
  | succ fuel ih =>
    rw [scanPriorityLevel] at found
    cases isScanned : consumers[scanIndex]?.filter
        fun consumer => decide (consumer.2.priorityLevel = targetPriority) with
    | none =>
      cases isFirst : firstConsumerIndexOfPriority consumers targetPriority with
      | none =>
        simp only [isScanned, isFirst] at found
        cases found
      | some first =>
        simp only [isScanned, isFirst] at found
        split_ifs at found
        exact ih _ _ found
    | some consumer =>
      simp only [isScanned] at found
      by_cases positive : 0 < consumer.2.availablePermits
      · simp only [positive, if_true] at found
        cases found
        exact ⟨consumer, (filter_eq_some_iff.mp isScanned).1, positive⟩
      · simp only [positive, if_false] at found
        split_ifs at found
        exact ih _ _ found

theorem same_or_lower_priority_available
    (found : findAvailableConsumerFromSameOrLowerPriority consumers currentIndex = some index) :
    Available consumers index := by
  unfold findAvailableConsumerFromSameOrLowerPriority at found
  split at found
  next => cases found
  next current isCurrent =>
    split_ifs at found with positive
    · cases found
      exact ⟨current, isCurrent, positive⟩
    split at found
    next answer scanned =>
      cases found
      exact scan_available _ _ _ scanned
    next last _ =>
      obtain ⟨place, isPlace, rfl⟩ := map_eq_some_iff.mp found
      apply available_of_search _ isPlace
      intro index consumer isConsumer
      rw [← isConsumer, getElem?_drop]

theorem next_consumer_available (found : nextConsumerIndex consumers currentIndex = some index) :
    Available consumers index := by
  unfold nextConsumerIndex at found
  split at found
  next => cases found
  next current _ =>
    rcases or_eq_some_iff.mp found with higher | ⟨_, lower⟩
    · split_ifs at higher
      exact higher_priority_available higher
    · exact same_or_lower_priority_available lower

theorem ordered_consumers_connected {dispatcher : SharedDispatcher} {consumer : Nat × Consumer}
    (member : consumer ∈ dispatcher.orderedConsumers) :
    consumer ∈ dispatcher.consumers.bindings := by
  obtain ⟨consumerId, _, found⟩ := mem_filterMap.mp member
  obtain ⟨value, isValue, rfl⟩ := map_eq_some_iff.mp found
  exact find_eq_some.mp isValue

theorem get_next_available_spec (dispatcher : SharedDispatcher) :
    (∃ index, dispatcher.getNextAvailableConsumer.2 =
      { dispatcher with roundRobinIndex := index }) ∧
    ∀ consumer, dispatcher.getNextAvailableConsumer.1 = some consumer →
      consumer ∈ dispatcher.consumers.bindings ∧ 0 < consumer.2.availablePermits := by
  unfold getNextAvailableConsumer
  dsimp only
  split
  next => exact ⟨⟨_, rfl⟩, nofun⟩
  next index found =>
    refine ⟨⟨_, rfl⟩, ?_⟩
    intro consumer isConsumer
    obtain ⟨other, isOther, positive⟩ := next_consumer_available found
    cases isOther.symm.trans isConsumer
    exact ⟨ordered_consumers_connected (mem_of_getElem? isConsumer), positive⟩

theorem is_message_pending_pends {dispatcher : SharedDispatcher} {messageId : MessageId}
    (pending : dispatcher.isMessagePending messageId = true) : dispatcher.Pends messageId := by
  obtain ⟨consumer, member, isPending⟩ := any_eq_true.mp pending
  exact ⟨consumer, ordered_consumers_connected member, of_decide_eq_true isPending⟩

def turned (pass : Pass SharedDispatcher) : Pass SharedDispatcher :=
  { pass with dispatcher := { pass.dispatcher with
      roundRobinIndex := pass.dispatcher.getNextAvailableConsumer.2.roundRobinIndex } }

theorem turned_dispatcher (pass : Pass SharedDispatcher) :
    pass.dispatcher.getNextAvailableConsumer.2 = (turned pass).dispatcher := by
  obtain ⟨⟨index, turns⟩, _⟩ := get_next_available_spec pass.dispatcher
  rw [turned, turns]

/-- The consumer whose turn it is, if it may have more. -/
structure Chosen (pass : Pass SharedDispatcher) (consumer : Nat × Consumer) : Prop where
  chosen : pass.dispatcher.getNextAvailableConsumer.1 = some consumer
  budget : consumer.2.pendingAcks.bindings.length < pass.dispatcher.maxUnackedMessages

variable {pass : Pass SharedDispatcher} {consumer : Nat × Consumer}

theorem Chosen.available (chosen : Chosen pass consumer) :
    consumer ∈ pass.dispatcher.consumers.bindings ∧ 0 < consumer.2.availablePermits :=
  (get_next_available_spec pass.dispatcher).2 consumer chosen.chosen

/-- A consumer that a message can be handed to. -/
structure CanTake (maxUnackedMessages : Nat) (consumer : Consumer) : Prop where
  positive : 0 < consumer.availablePermits
  budget : consumer.pendingAcks.bindings.length < maxUnackedMessages
  writable : consumer.isWritable = true
  connected : consumer.closed = false

def isStale (reader : SubscriptionReader) (entry : RedeliveryEntry) : Bool :=
  reader.isAcknowledged entry.1 || (reader.getMessageEntryById entry.1).isNone

/-- How many entries at the head of the queue are acknowledged or gone. Each of them
takes a turn to be dropped. -/
def staleAhead (reader : SubscriptionReader) (dispatcher : SharedDispatcher) : Nat :=
  (dispatcher.redeliveryController.entries.bindings.takeWhile (isStale reader)).length

variable (context : DispatchContext) (dispatcher : SharedDispatcher)

def nextMessage : Except DispatchError (Option ReadCandidate) × Option ManagedLedgerPosition :=
  nextDispatchableMessage context.reader dispatcher.isMessagePending context.fuel context.fuel
    dispatcher.readPosition

/-- The queue or a read has a message to hand out. -/
def Obtainable : Prop :=
  (∃ entry ∈ dispatcher.redeliveryController.entries.bindings,
      isStale context.reader entry = false) ∨
    ∃ candidate, (nextMessage context dispatcher).1 = .ok (some candidate)

/-- A message that there is to hand out, and where the read position and the queue are
left once it is taken, and if it is returned. -/
structure Pick where
  messageId : MessageId
  metadata : Bytes
  redeliveryCount : Nat
  readPosition : Option ManagedLedgerPosition
  taken : RedeliveryController
  returned : RedeliveryController

inductive Picks (context : DispatchContext) (dispatcher : SharedDispatcher) : Pick → Prop
  | queued (redelivery controller stored)
      (popped : dispatcher.redeliveryController.popNext = (some redelivery, controller))
      (unacked : context.reader.isAcknowledged redelivery.1 = false)
      (found : context.reader.getMessageEntryById redelivery.1 = some stored) :
      Picks context dispatcher {
        messageId := stored.messageId
        metadata := stored.metadata
        redeliveryCount := redelivery.2.redeliveryCount
        readPosition := dispatcher.readPosition
        taken := controller
        returned := controller.restore
          (stored.messageId, ⟨redelivery.2.redeliveryCount + 1, none⟩) }
  | read (candidate) (empty : dispatcher.redeliveryController.entries.bindings = [])
      (found : (nextMessage context dispatcher).1 = .ok (some candidate)) :
      Picks context dispatcher {
        messageId := candidate.messageId
        metadata := candidate.metadata
        redeliveryCount := 0
        readPosition := some candidate.nextPosition
        taken := dispatcher.redeliveryController
        returned := dispatcher.redeliveryController.add (candidate.messageId, ⟨1, none⟩) }

/-- What there is to hand out now, and whether the one whose turn it is gets it. -/
structure Attempt (context : DispatchContext) (pass : Pass SharedDispatcher)
    (consumer : Nat × Consumer) (pick : Pick) (sent : Bool) : Prop where
  chosen : Chosen pass consumer
  picks : Picks context pass.dispatcher pick
  sends : sent = true ↔ CanTake pass.dispatcher.maxUnackedMessages consumer.2 ∧
    pass.slots.headD true = true

def Pick.cost (pick : Pick) (context : DispatchContext) : Nat :=
  messagesInBatch context.decode pick.metadata

inductive Turn (context : DispatchContext) (pass : Pass SharedDispatcher) : Round → Prop
  | nobody (nobody : ∀ consumer, ¬ Chosen pass consumer) : Turn context pass (.stop (turned pass))
  | dropped (consumer redelivery controller) (chosen : Chosen pass consumer)
      (popped : pass.dispatcher.redeliveryController.popNext = (some redelivery, controller))
      (gone : isStale context.reader redelivery = true) :
      Turn context pass (.next { turned pass with
        dispatcher := { (turned pass).dispatcher with redeliveryController := controller } })
  | exhausted (round) (nothing : ¬ Obtainable context pass.dispatcher)
      (ends : ∀ rest, round.andThen rest = round)
      (left : round.state = { turned pass with
        dispatcher := { (turned pass).dispatcher with
          readPosition := (nextMessage context pass.dispatcher).2 } }) :
      Turn context pass round
  | handed (consumer pick slots) (attempt : Attempt context pass consumer pick true) :
      Turn context pass (.next {
        dispatcher := { (turned pass).dispatcher with
          consumers := pass.dispatcher.consumers.insert consumer.1 { consumer.2 with
            availablePermits := wrapI32 (consumer.2.availablePermits - pick.cost context)
            pendingAcks := consumer.2.pendingAcks.insert pick.messageId
              ⟨pick.redeliveryCount, none⟩ }
          totalAvailablePermits :=
            wrapI32 (pass.dispatcher.totalAvailablePermits - pick.cost context)
          readPosition := pick.readPosition
          redeliveryController := pick.taken }
        slots := slots
        delivered := pass.delivered ++
          [⟨consumer.1, pick.messageId, pick.metadata, pick.redeliveryCount⟩]
        progress := pass.progress + 1 })
  | bounced (consumer pick unsent slots) (attempt : Attempt context pass consumer pick false)
      (bounces : Bounced consumer.2 pick.messageId unsent)
      (refunded : unsent.availablePermits = wrapI32 (wrapI32
        (consumer.2.availablePermits - pick.cost context) + pick.cost context)) :
      Turn context pass (.stop { turned pass with
        dispatcher := { (turned pass).dispatcher with
          consumers := pass.dispatcher.consumers.insert consumer.1 unsent
          totalAvailablePermits := wrapI32 (wrapI32
            (pass.dispatcher.totalAvailablePermits - pick.cost context) + pick.cost context)
          readPosition := pick.readPosition
          redeliveryController := pick.returned }
        slots := slots })

variable (pass : Pass SharedDispatcher)

section

variable (chosen : Chosen pass consumer)
include chosen

/-- Permits do not keep a chosen consumer from getting a message, whatever its batch size. -/
theorem send_attempt {pick : Pick} (picks : Picks context pass.dispatcher pick) :
    ∃ charged sent after left, consumer.2.tryUsePermits (pick.cost context) = some charged ∧
      charged.sendMessage pick.messageId pick.redeliveryCount pass.slots = (sent, after, left) ∧
      Attempt context pass consumer pick sent ∧
      (sent = true → after = { consumer.2 with
        availablePermits := wrapI32 (consumer.2.availablePermits - pick.cost context)
        pendingAcks := consumer.2.pendingAcks.insert pick.messageId
          ⟨pick.redeliveryCount, none⟩ }) ∧
      (sent = false → Bounced consumer.2 pick.messageId (after.addPermits (pick.cost context)) ∧
        (after.addPermits (pick.cost context)).availablePermits = wrapI32 (wrapI32
          (consumer.2.availablePermits - pick.cost context) + pick.cost context)) := by
  obtain ⟨charged, charges, sent, after, left, sends, isSent, bounces⟩ :=
    send_charged chosen.available.2 (pick.cost context) pick.messageId pick.redeliveryCount none
      pass.slots
  refine ⟨charged, sent, after, left, charges, sends, ⟨chosen, picks, ?_⟩, isSent, bounces⟩
  rw [tryUsePermits, if_pos chosen.available.2] at charges
  cases charges
  constructor
  · rintro rfl
    have sent := congrArg Prod.fst sends
    unfold sendMessageWithStickyHash at sent
    split_ifs at sent with unreachable room
    simp only [Bool.or_eq_true, Bool.not_eq_true', not_or, Bool.not_eq_false,
      Bool.not_eq_true] at unreachable
    exact ⟨⟨chosen.available.2, chosen.budget, unreachable.1, unreachable.2⟩, room⟩
  · rintro ⟨able, room⟩
    exact congrArg Prod.fst (sends.symm.trans (send_eq able.writable able.connected room))

theorem redeliver_turn {redelivery : RedeliveryEntry} {controller : RedeliveryController}
    (popped : pass.dispatcher.redeliveryController.popNext = (some redelivery, controller)) :
    Turn context pass (redeliver context consumer.1 consumer.2 redelivery { turned pass with
      dispatcher := { (turned pass).dispatcher with redeliveryController := controller } }) := by
  by_cases gone : isStale context.reader redelivery = true
  · have dropped := Turn.dropped consumer redelivery controller chosen popped gone
    rw [isStale, Bool.or_eq_true, Option.isNone_iff_eq_none] at gone
    unfold redeliver
    rcases gone with acked | missing
    · rw [if_pos acked]
      exact dropped
    · rw [missing]
      split_ifs
      · exact dropped
      · exact dropped
  simp only [isStale, Bool.or_eq_true, not_or, Option.isNone_iff_eq_none] at gone
  obtain ⟨entry, found⟩ := Option.ne_none_iff_exists'.mp gone.2
  obtain ⟨charged, sent, after, left, charges, sends, attempt, isSent, bounces⟩ :=
    send_attempt context pass chosen
      (.queued redelivery controller entry popped (eq_false_of_ne_true gone.1) found)
  have pays : consumer.2.tryUsePermits (messagesInBatch context.decode entry.metadata) =
      some charged := charges
  have sending : charged.sendMessage entry.messageId redelivery.2.redeliveryCount
      (turned pass).slots = (sent, after, left) := sends
  simp only [redeliver, gone.1, found, pays, sending, Bool.false_eq_true, if_false]
  cases sent with
  | true =>
    have paid := isSent rfl
    subst paid
    exact (Turn.handed consumer _ left attempt :)
  | false =>
    obtain ⟨bounces, refunded⟩ := bounces rfl
    exact (Turn.bounced consumer _ _ left attempt bounces refunded :)

theorem candidate_turn {candidate : ReadCandidate} (readPosition : Option ManagedLedgerPosition)
    (empty : pass.dispatcher.redeliveryController.entries.bindings = [])
    (found : (nextMessage context pass.dispatcher).1 = .ok (some candidate)) :
    Turn context pass (dispatchCandidate context consumer.1 consumer.2 candidate { turned pass with
      dispatcher := { (turned pass).dispatcher with readPosition := readPosition } }) := by
  obtain ⟨charged, sent, after, left, charges, sends, attempt, isSent, bounces⟩ :=
    send_attempt context pass chosen (.read candidate empty found)
  have pays : consumer.2.tryUsePermits (messagesInBatch context.decode candidate.metadata) =
      some charged := charges
  have sending : charged.sendMessage candidate.messageId 0 (turned pass).slots =
      (sent, after, left) := sends
  simp only [dispatchCandidate, pays, sending]
  cases sent with
  | true =>
    have paid := isSent rfl
    subst paid
    exact (Turn.handed consumer _ left attempt :)
  | false =>
    obtain ⟨bounces, refunded⟩ := bounces rfl
    exact (Turn.bounced consumer _ _ left attempt bounces refunded :)

end

theorem dispatch_round_turn : Turn context pass (dispatchRound context pass) := by
  have isTurned := turned_dispatcher pass
  unfold dispatchRound
  cases answer : pass.dispatcher.getNextAvailableConsumer with
  | mk owner dispatcher =>
    rw [answer] at isTurned
    subst isTurned
    have isOwner : pass.dispatcher.getNextAvailableConsumer.1 = owner := congrArg Prod.fst answer
    cases owner with
    | none =>
      apply Turn.nobody
      intro consumer chosen
      cases isOwner.symm.trans chosen.chosen
    | some consumer =>
      dsimp only
      split_ifs with full
      · apply Turn.nobody
        intro other chosen
        cases isOwner.symm.trans chosen.chosen
        exact absurd full (not_le.mpr chosen.budget)
      have chosen : Chosen pass consumer := ⟨isOwner, not_le.mp full⟩
      split
      next redelivery controller popped => exact redeliver_turn context pass chosen popped
      next popped =>
        have empty : pass.dispatcher.redeliveryController.entries.bindings = [] :=
          RedeliveryController.pop_next_none popped
        have nothing : (∀ candidate, (nextMessage context pass.dispatcher).1 ≠
            .ok (some candidate)) → ¬ Obtainable context pass.dispatcher := by
          rintro unread (⟨entry, queued, _⟩ | ⟨candidate, found⟩)
          · rw [empty] at queued
            cases queued
          · exact unread candidate found
        have same : nextDispatchableMessage context.reader (turned pass).dispatcher.isMessagePending
            context.fuel context.fuel (turned pass).dispatcher.readPosition =
              nextMessage context pass.dispatcher := rfl
        rw [same]
        cases isNext : nextMessage context pass.dispatcher with
        | mk result readPosition =>
          have left : readPosition = (nextMessage context pass.dispatcher).2 := by rw [isNext]
          rw [isNext] at nothing
          cases result with
          | error failure => exact .exhausted _ (nothing nofun) (fun _ => rfl) (left ▸ rfl)
          | ok result =>
            cases result with
            | none => exact .exhausted _ (nothing nofun) (fun _ => rfl) (left ▸ rfl)
            | some candidate =>
              exact candidate_turn context pass chosen readPosition empty (by rw [isNext])

def stageOf (pass : Pass SharedDispatcher) : Stage :=
  ⟨pass.dispatcher.toMultipleConsumers, pass.delivered⟩

section

variable {context pass} {view : SubscriptionView} {redelivery : RedeliveryEntry}
  {controller : RedeliveryController}

/-- An entry that is popped is gone or meets the condition. -/
theorem popped_requeues {taken : MessageId → Prop}
    (popped : pass.dispatcher.redeliveryController.popNext = (some redelivery, controller))
    (why : Gone view redelivery.1 ∨ taken redelivery.1) :
    (stageOf pass).Requeues view taken controller := by
  intro messageId isQueued
  by_cases same : messageId = redelivery.1
  · subst same
    exact why.imp_right .inl
  · rw [(pop_next_some popped).2, mem_erase]
    exact .inr (.inr ⟨same, isQueued⟩)

variable (presents : Presents context.reader view)
include presents

theorem gone_of_stale (gone : isStale context.reader redelivery = true) :
    Gone view redelivery.1 := by
  rw [isStale, Bool.or_eq_true, Option.isNone_iff_eq_none] at gone
  refine gone.imp (presents.acknowledged _).mp fun missing message isMessage same => ?_
  rw [(presents.entry redelivery.1 message).mpr ⟨isMessage, same⟩] at missing
  cases missing

variable (ready : pass.dispatcher.Ready view)
include ready

/-- Once it is handed out or put back, a message that there is to hand out is accounted for. -/
theorem Picks.accounts {pick : Pick} (picks : Picks context pass.dispatcher pick) :
    ∃ message ∈ view.messages, message.messageId = pick.messageId ∧
      message.metadata = pick.metadata ∧
      (stageOf pass).Advances view (· = message.messageId) pick.readPosition ∧
      (stageOf pass).Requeues view (· = message.messageId) pick.taken ∧
      (∀ messageId ∈ pick.taken.entries, messageId ∈ pick.returned.entries) ∧
      message.messageId ∈ pick.returned.entries := by
  cases picks with
  | queued redelivery controller stored popped unacked found =>
    obtain ⟨isStored, same⟩ := (presents.entry redelivery.1 stored).mp found
    exact ⟨stored, isStored, rfl, rfl, .stay _, popped_requeues popped (.inr same.symm),
      fun _ member => mem_restore.mpr (.inr member), mem_restore.mpr (.inl rfl)⟩
  | read candidate empty found =>
    obtain ⟨_, message, offers⟩ := ready.offers presents
      (fun _ pending => is_message_pending_pends pending) _ _ candidate found
    exact ⟨message, offers.member, offers.messageId.symm, offers.metadata.symm,
      Stage.advances_candidate presents.lined offers rfl, .stay _,
      fun _ member => mem_add.mpr (.inr member), mem_add.mpr (.inl offers.messageId.symm)⟩

theorem Turn.step {round : Round} (turn : Turn context pass round) :
    Stage.Step context.decode view (stageOf pass) (stageOf round.state) := by
  cases turn with
  | nobody => exact .refl _
  | dropped consumer redelivery controller chosen popped gone =>
    exact .adjusted (stageOf pass) _ _ (.stay _)
      (popped_requeues popped (.inl (gone_of_stale presents gone)))
  | exhausted round nothing ends left =>
    rw [left]
    refine .adjusted (stageOf pass) _ _ (fun settled settles _ => ?_) (.stay _)
    exact settles.read presents (fun _ pending => is_message_pending_pends pending) _ _
  | handed consumer pick slots attempt =>
    obtain ⟨message, stored, isId, isMetadata, advances, requeues, _⟩ :=
      attempt.picks.accounts presents ready
    have step := @Stage.Step.handed context.decode view (stageOf pass) message _ _
      ⟨pick.redeliveryCount, none⟩ _ _ _ pick.redeliveryCount stored attempt.chosen.available.1
      attempt.chosen.available.2 (.inl rfl) advances requeues
    rw [isId, isMetadata] at step
    exact step
  | bounced consumer pick unsent slots attempt bounces refunded =>
    obtain ⟨message, stored, isId, isMetadata, advances, requeues, keeps, queued⟩ :=
      attempt.picks.accounts presents ready
    rw [Pick.cost, ← isMetadata] at refunded
    have step := @Stage.Step.bounced context.decode view (stageOf pass) message _ _ unsent
      _ _ pick.returned stored attempt.chosen.available.1 attempt.chosen.available.2 (.inl rfl)
      (isId ▸ bounces) refunded advances (fun messageId isQueued =>
        (requeues messageId isQueued).imp_right (Or.imp_right (keeps messageId))) queued
    rw [isMetadata] at step
    exact step

end

variable {holds : Stage → Prop}

def Holding (view : SubscriptionView) (holds : Stage → Prop) (pass : Pass SharedDispatcher) :
    Prop :=
  pass.dispatcher.Ready view ∧ holds (stageOf pass)

variable {context} {view : SubscriptionView} (presents : Presents context.reader view)
  (kept : ∀ before after, Stage.Step context.decode view before after →
    before.common.Ready view → holds before → holds after)
include presents kept

theorem dispatch_round_keeps (pass) (before : Holding view holds pass) :
    Holding view holds (dispatchRound context pass).state := by
  have step := (dispatch_round_turn context pass).step presents before.1
  exact ⟨step.ready before.1, kept _ _ step before.1 before.2⟩

theorem dispatch_messages_keeps (pass) (before : Holding view holds pass) :
    Holding view holds (dispatchMessages context pass).state :=
  dispatch_messages_keeps_rounds pass (fun _ between => between)
    (dispatch_round_keeps presents kept) before

end SharedDispatcher

end PulsarLite.Broker
