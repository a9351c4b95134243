import PulsarLite.Broker.CommonRun

/-!
# No consumer is handed more than it was granted

Flow commands grant permits, and an entry is handed over while some are left; it
may be worth more than is left. The dispatchers with many consumers charge what an
entry is worth, those with one active consumer charge one permit. Every request is
allowed at any time, seeks among them.
-/

namespace PulsarLite.Broker.Subscription

open Library Storage List DispatcherEnum Option Function OrderedMap Consumer

variable {batchCount : Nat} {counts : List Nat} {handed : List Delivery}

/-- What a consumer was granted since it joined, and how many deliveries there had
been before. -/
structure Account where
  granted : Nat
  since : Nat

/-- What the entries among some deliveries that went to a consumer are worth. -/
def handedCounts (count : Bytes → Nat) (consumerId : Nat) (deliveries : List Delivery) :
    List Nat :=
  (deliveries.filter fun delivery => decide (delivery.consumerId = consumerId)).map
    fun delivery => count delivery.metadata

/-- The permits of a consumer are covered by what it was granted and not handed yet,
and every entry was handed over while something was left. -/
structure Within (count : Bytes → Nat) (account : Account) (consumerId : Nat) (permits : Int)
    (delivered : List Delivery) : Prop where
  low : -(2 ^ 31) ≤ permits
  high : permits < 2 ^ 31
  since : account.since ≤ delivered.length
  balance : permits + (handedCounts count consumerId (delivered.drop account.since)).sum ≤
    account.granted
  spent : ∀ before last after,
    handedCounts count consumerId (delivered.drop account.since) = before ++ last :: after →
      before.sum < account.granted

section

variable {count : Bytes → Nat} {account : Account} {consumerId : Nat} {permits value : Int}
  {delivered : List Delivery}

theorem wrap_i32_low (value : Int) : -(2 ^ 31) ≤ wrapI32 value := by
  unfold wrapI32 Int.bmod
  dsimp only
  split_ifs <;> omega

theorem wrap_i32_high (value : Int) : wrapI32 value < 2 ^ 31 := by
  unfold wrapI32 Int.bmod
  dsimp only
  split_ifs <;> omega

theorem wrap_i32_le (low : -(2 ^ 31) ≤ value) : wrapI32 value ≤ value := by
  unfold wrapI32 Int.bmod
  dsimp only
  split_ifs <;> omega

theorem Within.new (count : Bytes → Nat) (consumerId : Nat) (delivered : List Delivery) :
    Within count ⟨0, delivered.length⟩ consumerId 0 delivered := by
  constructor
  · decide
  · decide
  · exact le_refl _
  · simp [handedCounts]
  · intro before last after split
    simp [handedCounts] at split

section

variable (within : Within count account consumerId permits delivered)
include within

theorem Within.flow (more : Nat) :
    Within count { account with granted := account.granted + more } consumerId
      (wrapI32 (permits + more)) delivered := by
  have low := within.low
  have balance := within.balance
  have wrapped : wrapI32 (permits + more) ≤ permits + more := wrap_i32_le (by omega)
  refine ⟨wrap_i32_low _, wrap_i32_high _, within.since, ?_, ?_⟩
  · dsimp only
    omega
  · intro before last after split
    exact (within.spent before last after split).trans_le (Nat.le_add_right _ _)

theorem Within.other (delivery : Delivery) (different : delivery.consumerId ≠ consumerId) :
    Within count account consumerId permits (delivered ++ [delivery]) := by
  have same : handedCounts count consumerId ((delivered ++ [delivery]).drop account.since) =
      handedCounts count consumerId (delivered.drop account.since) := by
    rw [drop_append_of_le_length within.since, handedCounts, filter_append, handedCounts]
    simp [different]
  refine ⟨within.low, within.high, ?_, ?_, ?_⟩
  · rw [length_append]
    exact within.since.trans (Nat.le_add_right _ _)
  · rw [same]
    exact within.balance
  · rw [same]
    exact within.spent

theorem Within.hand (positive : 0 < permits) (delivery : Delivery)
    (isConsumer : delivery.consumerId = consumerId) (word : count delivery.metadata < 2 ^ 31) :
    Within count account consumerId (wrapI32 (permits - count delivery.metadata))
      (delivered ++ [delivery]) := by
  have high := within.high
  have balance := within.balance
  have charged : wrapI32 (permits - count delivery.metadata) =
      permits - count delivery.metadata := wrap_i32_of_fits (by omega) (by omega)
  have more : handedCounts count consumerId ((delivered ++ [delivery]).drop account.since) =
      handedCounts count consumerId (delivered.drop account.since) ++
        [count delivery.metadata] := by
    rw [drop_append_of_le_length within.since, handedCounts, filter_append, handedCounts]
    simp [isConsumer]
  refine ⟨wrap_i32_low _, wrap_i32_high _, ?_, ?_, ?_⟩
  · rw [length_append]
    exact within.since.trans (Nat.le_add_right _ _)
  · rw [charged, more, sum_append, sum_singleton, Nat.cast_add]
    omega
  intro before last after split
  rw [more] at split
  -- the entry is the last one, or one that was handed over before
  rcases eq_nil_or_concat after with rfl | ⟨rest, newest, rfl⟩
  · obtain ⟨rfl, _⟩ := append_inj' split rfl
    omega
  have shorter : handedCounts count consumerId (delivered.drop account.since) =
      before ++ last :: rest := by
    rw [concat_eq_append, ← cons_append, ← append_assoc] at split
    exact (append_inj' split rfl).1
  exact within.spent before last rest shorter

theorem Within.refund (positive : 0 < permits) (word : batchCount < 2 ^ 31) :
    wrapI32 (wrapI32 (permits - batchCount) + batchCount) = permits := by
  have high := within.high
  have charged : wrapI32 (permits - batchCount) = permits - batchCount :=
    wrap_i32_of_fits (by omega) (by omega)
  rw [charged, wrap_i32_of_fits (by omega) (by omega)]
  omega

end

def largest (counts : List Nat) : Nat := counts.foldr max 0

theorem le_largest {count : Nat} (member : count ∈ counts) :
    count ≤ largest counts := by
  induction counts with
  | nil => cases member
  | cons first rest ih =>
    rcases mem_cons.mp member with rfl | later
    · exact le_max_left _ _
    · exact (ih later).trans (le_max_right _ _)

theorem Within.bound (within : Within count account consumerId permits delivered)
    (early : handed <+: delivered.drop account.since) :
    (handedCounts count consumerId handed).sum ≤
      account.granted + (largest (handedCounts count consumerId handed) - 1) := by
  have counts : handedCounts count consumerId handed <+:
      handedCounts count consumerId (delivered.drop account.since) :=
    (early.filter _).map _
  rcases eq_nil_or_concat (handedCounts count consumerId handed) with
    nothing | ⟨before, last, isLast⟩
  · rw [nothing]
    exact Nat.zero_le _
  rw [concat_eq_append] at isLast
  obtain ⟨after, split⟩ := counts
  rw [isLast, append_assoc] at split
  have left := within.spent before last after split.symm
  have most : last ≤ largest (handedCounts count consumerId handed) := by
    apply le_largest
    rw [isLast]
    exact mem_append_right _ mem_cons_self
  rw [isLast, sum_append, sum_singleton, ← isLast]
  omega

end

/-- Every connected consumer is within its account. -/
def Covered (count : Bytes → Nat) (account : Nat → Account) (consumers : OrderedMap Nat Consumer)
    (delivered : List Delivery) : Prop :=
  ∀ consumer ∈ consumers.bindings, Within count (account consumer.1) consumer.1
    consumer.2.availablePermits delivered

section

variable {count : Bytes → Nat} {account : Nat → Account} {consumers : OrderedMap Nat Consumer}
  {delivered : List Delivery} {consumerId : Nat} {consumer : Consumer}
  (covered : Covered count account consumers delivered)
include covered

theorem Covered.put {updated : Nat → Account} {after : Consumer}
    (same : ∀ other, other ≠ consumerId → updated other = account other)
    (within : Within count (updated consumerId) consumerId after.availablePermits delivered) :
    Covered count updated (consumers.insert consumerId after) delivered := by
  intro other isOther
  rcases mem_bindings_insert.mp isOther with rfl | ⟨different, old⟩
  · exact within
  · rw [same other.1 different]
    exact covered other old

theorem Covered.same {after : OrderedMap Nat Consumer}
    (same : standings after = standings consumers) : Covered count account after delivered := by
  intro consumer member
  obtain ⟨old, isOld, isSame⟩ := exists_standing same member
  obtain ⟨sameId, sameRest⟩ := Prod.mk.inj isSame
  rw [← sameId, ← (Prod.mk.inj sameRest).1]
  exact covered old isOld

section

variable (member : (consumerId, consumer) ∈ consumers.bindings)
  (positive : 0 < consumer.availablePermits)
include member positive

theorem Covered.hand (delivery : Delivery) (isConsumer : delivery.consumerId = consumerId)
    (word : count delivery.metadata < 2 ^ 31) {pendingAcks : OrderedMap MessageId PendingAck} :
    Covered count account (consumers.insert consumerId { consumer with
      availablePermits := wrapI32 (consumer.availablePermits - count delivery.metadata)
      pendingAcks := pendingAcks }) (delivered ++ [delivery]) := by
  intro other isOther
  rcases mem_bindings_insert.mp isOther with rfl | ⟨different, old⟩
  · exact (covered _ member).hand positive delivery isConsumer word
  · exact (covered other old).other _ (isConsumer ▸ different.symm)

theorem Covered.refund (word : batchCount < 2 ^ 31) {after : Consumer}
    (refunded : after.availablePermits =
      wrapI32 (wrapI32 (consumer.availablePermits - batchCount) + batchCount)) :
    Covered count account (consumers.insert consumerId after) delivered := by
  have within := covered _ member
  apply covered.put (fun _ _ => rfl)
  rw [refunded, within.refund positive word]
  exact within

/-- A consumer with permits pays for an entry. It is handed the entry, or has its permits
back. -/
theorem Covered.send (metadata : Bytes) (word : count metadata < 2 ^ 31) (messageId : MessageId)
    (redeliveryCount : Nat) (stickyKeyHash : Option Int) (slots : ChannelSlots) :
    ∃ charged, consumer.tryUsePermits (count metadata) = some charged ∧ ∃ sent after left,
      charged.sendMessageWithStickyHash messageId redeliveryCount stickyKeyHash slots =
        (sent, after, left) ∧
      (sent = true → Covered count account (consumers.insert consumerId after)
        (delivered ++ [⟨consumerId, messageId, metadata, redeliveryCount⟩])) ∧
      (sent = false → Covered count account
        (consumers.insert consumerId (after.addPermits (count metadata))) delivered) := by
  obtain ⟨charged, pays, sent, after, left, sends, isSent, bounces⟩ :=
    send_charged positive (count metadata) messageId redeliveryCount stickyKeyHash slots
  refine ⟨charged, pays, sent, after, left, sends, fun isTrue => ?_, fun isFalse => ?_⟩
  · rw [isSent isTrue]
    exact covered.hand member positive ⟨consumerId, messageId, metadata, redeliveryCount⟩ rfl word
  · exact covered.refund member positive word (bounces isFalse).2

end

end

section

variable {context : DispatchContext} {account : Nat → Account} {consumerId : Nat}
  {consumer : Consumer} {batch : KeySharedDispatcher.Batch}

/-- What a pass has under way is covered. -/
abbrev PassCovered (count : Bytes → Nat) (account : Nat → Account) {δ : Type}
    (consumers : δ → OrderedMap Nat Consumer) (pass : Pass δ) : Prop :=
  Covered count account (consumers pass.dispatcher) pass.delivered

theorem single_active_round (pass : Pass SingleActive)
    (covered : PassCovered (fun _ => 1) account SingleActive.consumers pass) :
    PassCovered (fun _ => 1) account SingleActive.consumers
      (SingleActive.dispatchRound context consumerId pass).state := by
  unfold SingleActive.dispatchRound
  cases found : pass.dispatcher.consumers.find consumerId with
  | none => exact covered
  | some consumer =>
    have member := find_eq_some.mp found
    have within := covered _ member
    by_cases positive : 0 < consumer.availablePermits
    · have pays : consumer.usePermit = some { consumer with
          availablePermits := wrapI32 (consumer.availablePermits - (1 : Nat)) } :=
        if_pos positive
      simp only [bind_some, pays]
      split
      next =>
        have high := within.high
        have balance := within.balance
        dsimp only at high balance
        have charged : wrapI32 (consumer.availablePermits - (1 : Nat)) =
            consumer.availablePermits - (1 : Nat) := wrap_i32_of_fits (by omega) (by omega)
        apply covered.put (fun _ _ => rfl)
        refine ⟨wrap_i32_low _, wrap_i32_high _, within.since, ?_, within.spent⟩
        dsimp only
        omega
      next =>
        apply covered.put (fun _ _ => rfl)
        dsimp only [addPermits]
        rw [within.refund positive (by decide)]
        exact within
      next candidate readPosition _ =>
        obtain ⟨charged, isCharged, sent, after, left, sends, isSent, bounces⟩ := covered.send
          member positive candidate.metadata (by decide) candidate.messageId 0 none pass.slots
        cases pays.symm.trans isCharged
        simp only [enqueueMessage, sendMessage, sends]
        cases sent with
        | true => exact isSent rfl
        | false => exact bounces rfl
    · have refuses : consumer.usePermit = none := if_neg positive
      simp only [bind_some, refuses]
      exact covered

theorem single_active_pass {active : Option Nat} {pass : Pass SingleActive}
    (covered : PassCovered (fun _ => 1) account SingleActive.consumers pass) :
    PassCovered (fun _ => 1) account SingleActive.consumers
      (SingleActive.dispatchMessages context active pass).state := by
  let holds : Pass SingleActive → Prop :=
    PassCovered (fun _ => 1) account SingleActive.consumers
  have batches pass : holds pass → holds (SingleActive.nextBatch context active pass).state := by
    intro covered
    unfold SingleActive.nextBatch
    cases active with
    | none => exact covered
    | some consumerId =>
      dsimp only
      split_ifs
      · exact covered
      have rounds : holds (Flow.rounds (SingleActive.dispatchRound context consumerId)
          (min pass.dispatcher.totalAvailablePermits dispatcherMaxRoundRobinBatchSize)
          { pass with progress := 0 }).state :=
        Flow.rounds_state holds single_active_round _ covered
      split
      next last isLast =>
        rw [isLast] at rounds
        exact rounds
      next last isLast =>
        rw [isLast] at rounds
        split_ifs <;> exact rounds
      next last isLast =>
        rw [isLast] at rounds
        split_ifs <;> exact rounds
  exact Flow.rounds_state holds batches _ covered

variable (words : ∀ metadata, messagesInBatch context.decode metadata < 2 ^ 31)
include words

theorem shared_round (pass : Pass SharedDispatcher)
    (covered : PassCovered (messagesInBatch context.decode) account (·.consumers) pass) :
    PassCovered (messagesInBatch context.decode) account (·.consumers)
      (SharedDispatcher.dispatchRound context pass).state := by
  have turn := SharedDispatcher.dispatch_round_turn context pass
  generalize SharedDispatcher.dispatchRound context pass = round at turn
  cases turn with
  | nobody | dropped => exact covered
  | exhausted round nothing ends left =>
    rw [left]
    exact covered
  | handed consumer pick slots attempt =>
    obtain ⟨member, positive⟩ := attempt.chosen.available
    exact covered.hand member positive ⟨_, _, _, _⟩ rfl (words _)
  | bounced consumer pick unsent slots attempt bounces refunded =>
    obtain ⟨member, positive⟩ := attempt.chosen.available
    exact covered.refund member positive (words _) refunded

omit words in
theorem pop_dispatchable_selected {dispatcher : KeySharedDispatcher} (queue : List RedeliveryEntry)
    (controller : RedeliveryController) {redelivery : KeySharedDispatcher.DispatchableRedelivery}
    (found : (KeySharedDispatcher.popDispatchable context dispatcher queue controller).1 =
      some redelivery) :
    ∃ hash, dispatcher.selectConsumerForHash hash =
      some (redelivery.consumerId, redelivery.consumer) := by
  induction queue generalizing controller with
  | nil => cases found
  | cons queued rest ih =>
    rw [KeySharedDispatcher.popDispatchable] at found
    split_ifs at found
    · exact ih _ found
    split at found
    next => exact ih _ found
    next stored _ =>
      dsimp only at found
      split_ifs at found
      · exact ih _ found
      split at found
      next => exact ih _ found
      next consumerId consumer selected =>
        split at found
        next => exact ih _ found
        next =>
          cases found
          exact ⟨_, selected⟩

section

variable (covered : PassCovered (messagesInBatch context.decode) account (·.consumers) batch.toPass)
include covered

theorem key_shared_redelivery :
    PassCovered (messagesInBatch context.decode) account (·.consumers)
      (KeySharedDispatcher.dispatchRedelivery context batch).state.toPass := by
  unfold KeySharedDispatcher.dispatchRedelivery KeySharedDispatcher.popDispatchableRedeliveryMessage
  cases found : (KeySharedDispatcher.popDispatchable context batch.dispatcher
      batch.dispatcher.redeliveryController.queuedEntries
      batch.dispatcher.redeliveryController).1 with
  | none =>
    simp only [found]
    exact covered
  | some redelivery =>
    obtain ⟨hash, selected⟩ := pop_dispatchable_selected _ _ found
    obtain ⟨_, member, positive, _⟩ := KeySharedDispatcher.select_consumer_some selected
    obtain ⟨charged, pays, sent, after, left, sends, isSent, bounces⟩ :=
      covered.send member positive redelivery.stored.metadata (words _) redelivery.stored.messageId
        redelivery.entry.2.redeliveryCount (some (redelivery.entry.2.stickyKeyHash.getD
          (stickyKeyHashFromMetadata context.decode redelivery.stored.metadata))) batch.slots
    simp only [found, KeySharedDispatcher.redeliver, pays, sends]
    cases sent with
    | true => exact isSent rfl
    | false => exact bounces rfl

theorem key_shared_new :
    PassCovered (messagesInBatch context.decode) account (·.consumers)
      (KeySharedDispatcher.dispatchNew context batch).state.toPass := by
  unfold KeySharedDispatcher.dispatchNew
  split
  next => exact covered
  next => exact covered
  next candidate readPosition _ =>
    unfold KeySharedDispatcher.dispatchCandidate
    dsimp only
    split_ifs
    · exact covered
    split
    next => exact covered
    next consumerId consumer selected =>
      obtain ⟨_, member, positive, _⟩ := KeySharedDispatcher.select_consumer_some selected
      obtain ⟨charged, pays, sent, after, left, sends, isSent, bounces⟩ :=
        covered.send member positive candidate.metadata (words _) candidate.messageId 0
          (some (stickyKeyHashFromMetadata context.decode candidate.metadata)) batch.slots
      simp only [pays, sends]
      cases sent with
      | true => exact isSent rfl
      | false => exact bounces rfl

end

theorem key_shared_round (batch : KeySharedDispatcher.Batch)
    (covered : PassCovered (messagesInBatch context.decode) account (·.consumers) batch.toPass) :
    PassCovered (messagesInBatch context.decode) account (·.consumers)
      (KeySharedDispatcher.dispatchRound context batch).state.toPass := by
  unfold KeySharedDispatcher.dispatchRound
  split_ifs
  · exact covered
  apply Flow.and_then_state fun batch : KeySharedDispatcher.Batch =>
    PassCovered (messagesInBatch context.decode) account (·.consumers) batch.toPass
  · exact key_shared_redelivery words covered
  · exact fun _ between => key_shared_new words between

/-- What an entry costs. -/
def charge (decode : Decode) : SubscriptionType → Bytes → Nat
  | .shared | .keyShared => messagesInBatch decode
  | .exclusive | .failover => fun _ => 1

theorem Covered.dispatch {dispatcher : DispatcherEnum} {delivered : List Delivery}
    (slots : ChannelSlots) (covered : Covered (charge context.decode dispatcher.getType) account
      dispatcher.consumers delivered) :
    Covered (charge context.decode dispatcher.getType) account
      (dispatcher.dispatchMessages context slots delivered).2.1.consumers
      (dispatcher.dispatchMessages context slots delivered).2.2 := by
  cases dispatcher with
  | exclusive | failover => exact single_active_pass covered
  | shared dispatcher =>
    exact SharedDispatcher.dispatch_messages_keeps_rounds ⟨dispatcher, slots, delivered, 0⟩
      (fun _ between => between) (shared_round words) covered
  | keyShared dispatcher =>
    exact KeySharedDispatcher.dispatch_messages_keeps_rounds ⟨dispatcher, slots, delivered, 0⟩
      (fun _ between => between) (key_shared_round words) covered

end

section

variable {dispatcher joined : DispatcherEnum} {consumerId : Nat} {consumer : Consumer}

@[simp] theorem put_consumer_consumers : (dispatcher.putConsumer consumerId consumer).consumers =
    dispatcher.consumers.insert consumerId consumer := by
  cases dispatcher <;> rfl

@[simp] theorem put_consumer_type :
    (dispatcher.putConsumer consumerId consumer).getType = dispatcher.getType := by
  cases dispatcher <;> rfl

theorem add_consumer_consumers (added : dispatcher.addConsumer consumerId consumer = some joined) :
    consumerId ∉ dispatcher.consumers ∧
      joined.consumers = dispatcher.consumers.insert consumerId consumer := by
  cases dispatcher with
  | exclusive dispatcher =>
    obtain ⟨after, isAfter, rfl⟩ := map_eq_some_iff.mp added
    unfold ExclusiveDispatcher.addConsumer at isAfter
    split_ifs at isAfter with taken
    cases isAfter
    refine ⟨?_, rfl⟩
    intro known
    have keys : dispatcher.consumers.keys = [] := by
      simpa [ExclusiveDispatcher.consumer] using taken
    have listed : consumerId ∈ dispatcher.consumers.keys := known
    rw [keys] at listed
    cases listed
  | failover dispatcher =>
    obtain ⟨after, isAfter, rfl⟩ := map_eq_some_iff.mp added
    unfold FailoverDispatcher.addConsumer at isAfter
    split_ifs at isAfter with known
    cases isAfter
    exact ⟨known, rfl⟩
  | shared dispatcher | keyShared dispatcher =>
    obtain ⟨fresh, isJoined, _⟩ := add_consumer_replaces rfl added
    exact ⟨fresh, multiple_consumers isJoined⟩

theorem failover_leave_consumers (dispatcher : FailoverDispatcher) :
    (dispatcher.leave consumerId).consumers = dispatcher.consumers ∨
      (dispatcher.leave consumerId).consumers = dispatcher.consumers.erase consumerId := by
  unfold FailoverDispatcher.leave FailoverDispatcher.removeConsumer
  dsimp only
  split_ifs <;> first | exact .inl rfl | exact .inr rfl

theorem remove_consumer_consumers (reader : SubscriptionReader) :
    (dispatcher.removeConsumerWithRecovery reader consumerId).consumers = dispatcher.consumers ∨
      (dispatcher.removeConsumerWithRecovery reader consumerId).consumers =
        dispatcher.consumers.erase consumerId := by
  have many {common : MultipleConsumers} (isCommon : dispatcher.multiple = some common) :
      (dispatcher.removeConsumerWithRecovery reader consumerId).consumers =
          dispatcher.consumers ∨
        (dispatcher.removeConsumerWithRecovery reader consumerId).consumers =
          dispatcher.consumers.erase consumerId := by
    rw [multiple_consumers isCommon]
    rcases remove_consumer_replaces isCommon reader consumerId with same | ⟨_, _, _, _, _, left⟩
    · exact .inl (multiple_consumers same.multiple)
    · exact .inr (multiple_consumers left.multiple)
  cases dispatcher with
  | exclusive dispatcher => exact .inr rfl
  | failover dispatcher =>
    unfold DispatcherEnum.removeConsumerWithRecovery FailoverDispatcher.removeConsumerWithRecovery
    dsimp only
    split_ifs
    all_goals exact failover_leave_consumers _
  | shared | keyShared => exact many rfl

theorem consumer_flow_consumers (permits : Nat) :
    ((dispatcher.putConsumer consumerId consumer).consumerFlow consumerId permits).consumers =
      dispatcher.consumers.insert consumerId consumer := by
  cases dispatcher with
  | exclusive dispatcher =>
    unfold putConsumer consumerFlow ExclusiveDispatcher.consumerFlow
    dsimp only
    split_ifs <;> rfl
  | failover dispatcher =>
    unfold putConsumer consumerFlow FailoverDispatcher.consumerFlow
    dsimp only
    split_ifs <;> rfl
  | shared dispatcher | keyShared dispatcher =>
    rw [consumer_flow_eq rfl]
    rfl

@[simp] theorem consumer_flow_type (permits : Nat) :
    (dispatcher.consumerFlow consumerId permits).getType = dispatcher.getType := by
  cases dispatcher <;> rfl

end

/-- A dispatcher is of the same type and its consumers have the same permits. -/
structure SameStanding (before after : DispatcherEnum) : Prop where
  isType : after.getType = before.getType
  everybody : standings after.consumers = standings before.consumers

section

variable {before after last : DispatcherEnum} {consumerId : Nat} {consumer changed : Consumer}

theorem SameStanding.trans (first : SameStanding before after)
    (second : SameStanding after last) : SameStanding before last :=
  ⟨second.isType.trans first.isType, second.everybody.trans first.everybody⟩

theorem SameStanding.put (found : before.consumers.find consumerId = some consumer)
    (same : standing (consumerId, changed) = standing (consumerId, consumer)) :
    SameStanding before (before.putConsumer consumerId changed) := by
  refine ⟨put_consumer_type, ?_⟩
  rw [put_consumer_consumers]
  exact standings_put (find_eq_some.mp found) same

theorem SameStanding.take_acked (walk : List Nat) (consumerId : Nat) (messageIds : List MessageId)
    (dispatcher : DispatcherEnum) :
    SameStanding dispatcher (takeAcked walk consumerId messageIds dispatcher).2 := by
  induction messageIds generalizing dispatcher with
  | nil => exact ⟨rfl, rfl⟩
  | cons messageId rest ih =>
    rw [takeAcked]
    split
    next => exact ih dispatcher
    next owner tracked _ =>
      split
      next => exact ih dispatcher
      next consumer found =>
        have taken : SameStanding dispatcher (dispatcher.putConsumer owner
          (consumer.removePendingAck tracked)) := .put found rfl
        exact taken.trans (ih _)

theorem SameStanding.take_own_acked (consumerId : Nat) (messageIds : List MessageId)
    (dispatcher : DispatcherEnum) :
    SameStanding dispatcher (takeOwnAcked consumerId messageIds dispatcher).2 := by
  induction messageIds generalizing dispatcher with
  | nil => exact ⟨rfl, rfl⟩
  | cons messageId rest ih =>
    rw [takeOwnAcked]
    split
    next => exact ih dispatcher
    next consumer found =>
      have taken : SameStanding dispatcher (dispatcher.putConsumer consumerId
        (consumer.removePendingAck messageId)) := .put (filter_eq_some_iff.mp found).1 rfl
      exact taken.trans (ih _)

theorem SameStanding.acknowledged (reader : SubscriptionReader) (tracked : List MessageId)
    (dispatcher : DispatcherEnum) :
    SameStanding dispatcher ((tracked.foldl (fun dispatcher messageId =>
      dispatcher.onMessageAcknowledged messageId) dispatcher).onAckStateUpdated reader).2 := by
  rw [acknowledge_each_eq]
  have updated (common : MultipleConsumers) :
      (common.onAckStateUpdated reader).2.consumers = common.consumers := by
    unfold MultipleConsumers.onAckStateUpdated
    split <;> rfl
  cases dispatcher with
  | exclusive | failover => exact ⟨rfl, rfl⟩
  | shared dispatcher | keyShared dispatcher => exact ⟨rfl, congrArg standings (updated _)⟩

theorem SameStanding.drained (consumerIds : List Nat) (dispatcher : DispatcherEnum) :
    SameStanding dispatcher (consumerIds.foldl drainConsumer dispatcher) := by
  induction consumerIds generalizing dispatcher with
  | nil => exact ⟨rfl, rfl⟩
  | cons consumerId rest ih =>
    have drained : SameStanding dispatcher (drainConsumer dispatcher consumerId) := by
      unfold drainConsumer
      split
      next => exact ⟨rfl, rfl⟩
      next consumer found => exact .put found rfl
    exact drained.trans (ih _)

end

/-- A request neither delivers anything nor changes the permits of a consumer. -/
structure Undisturbed (before after : Subscription) : Prop where
  isType : after.subType = before.subType
  delivered : after.delivered = before.delivered
  standing : ∀ dispatcher, after.dispatcher = some dispatcher →
    ∃ old, before.dispatcher = some old ∧ SameStanding old dispatcher

section

variable {site : SubscriptionSite} {subscription : Subscription} {dispatcher taken : DispatcherEnum}

theorem Undisturbed.refl (subscription : Subscription) : Undisturbed subscription subscription :=
  ⟨rfl, rfl, fun dispatcher isDispatcher => ⟨dispatcher, isDispatcher, rfl, rfl⟩⟩

theorem Undisturbed.of_dispatcher (isDispatcher : subscription.dispatcher = some dispatcher)
    {after : DispatcherEnum} (same : SameStanding dispatcher after) (store : ManagedLedgerStore) :
    Undisturbed subscription { subscription with
      dispatcher := some after
      store := store } := by
  refine ⟨rfl, rfl, ?_⟩
  rintro last ⟨⟩
  exact ⟨dispatcher, isDispatcher, same⟩

theorem Undisturbed.acknowledge_shared (isDispatcher : subscription.dispatcher = some dispatcher)
    (same : SameStanding dispatcher taken) (messageIds : List MessageId) :
    Undisturbed subscription (acknowledgeShared site messageIds { subscription with
      dispatcher := some taken }).2 := by
  unfold acknowledgeShared
  split
  next => exact .of_dispatcher isDispatcher same _
  next => exact .of_dispatcher isDispatcher (same.trans (.acknowledged _ messageIds taken)) _

theorem Undisturbed.message_acked (consumerId : Nat) (ackType : AckCommandType)
    (messageIds : List MessageId) (walk : List Nat) :
    Undisturbed subscription
      (subscription.messageAcked site consumerId ackType messageIds walk).2 := by
  unfold messageAcked
  split
  next => exact .refl _
  next dispatcher isDispatcher =>
    have shared := SameStanding.take_acked walk consumerId messageIds dispatcher
    have own := SameStanding.take_own_acked consumerId messageIds dispatcher
    by_cases unknown : consumerId ∉ dispatcher.consumers
    · rw [if_pos unknown]
      exact .refl _
    rw [if_neg unknown]
    -- one case for each kind of ack and each type of subscription
    cases ackType
    all_goals split
    all_goals
      dsimp only
      split_ifs
      all_goals first
        | exact .refl _
        | exact .of_dispatcher isDispatcher shared _
        | exact .acknowledge_shared isDispatcher shared _
        | exact .of_dispatcher isDispatcher ⟨rfl, rfl⟩ _
        | exact .of_dispatcher isDispatcher own _

theorem Undisturbed.set_writable (consumerId : Nat) (isWritable : Bool) :
    Undisturbed subscription (subscription.setWritable consumerId isWritable) := by
  unfold setWritable
  split
  next => exact .refl _
  next dispatcher isDispatcher =>
    split
    next => exact .refl _
    next consumer found =>
      have written : SameStanding dispatcher (dispatcher.putConsumer consumerId
        { consumer with isWritable := isWritable }) := .put found rfl
      exact .of_dispatcher isDispatcher written _

theorem Undisturbed.seek (consumerId : Nat) (messageId : MessageId) :
    Undisturbed subscription (subscription.seek site consumerId messageId).2 := by
  have stored (store : ManagedLedgerStore) :
      Undisturbed subscription { subscription with store := store } :=
    ⟨rfl, rfl, fun dispatcher isDispatcher => ⟨dispatcher, isDispatcher, rfl, rfl⟩⟩
  unfold Subscription.seek
  split
  next => exact .refl _
  next dispatcher isDispatcher =>
    by_cases unknown : consumerId ∉ dispatcher.consumers
    · rw [if_pos unknown]
      exact .refl _
    rw [if_neg unknown]
    dsimp only
    split
    next => exact stored _
    next => exact stored _
    next firstUnacked _ _ =>
      have reset : SameStanding dispatcher (dispatcher.resetAfterSeek firstUnacked) := by
        cases dispatcher <;> exact ⟨rfl, rfl⟩
      exact .of_dispatcher isDispatcher (reset.trans (.drained _ _)) _

/-- What is given back is taken from the consumer, and a pass may follow. -/
theorem redeliver_undisturbed (consumerId : Nat) (messageIds : List MessageId)
    (slots : ChannelSlots) :
    ∃ between, Undisturbed subscription between ∧
      ((subscription.redeliverUnacknowledgedMessages site consumerId messageIds slots).2 = between ∨
        (subscription.redeliverUnacknowledgedMessages site consumerId messageIds slots).2 =
          between.dispatchMessages site slots) := by
  unfold redeliverUnacknowledgedMessages
  split
  next => exact ⟨_, .refl _, .inl rfl⟩
  next => exact ⟨_, .refl _, .inl rfl⟩
  all_goals
    split
    next => exact ⟨_, .refl _, .inl rfl⟩
    next dispatcher isDispatcher =>
      split
      next => exact ⟨_, .refl _, .inl rfl⟩
      next consumer found =>
        have taken : SameStanding dispatcher (dispatcher.putConsumer consumerId
            (takeForRedelivery messageIds consumer).2) :=
          .put found ((take_for_redelivery_spec messageIds consumer).stands consumerId)
        have queued (entries : List RedeliveryEntry) (dispatcher : DispatcherEnum) :
            SameStanding dispatcher (dispatcher.redeliverMessages entries) := by
          cases dispatcher <;> exact ⟨rfl, rfl⟩
        dsimp only
        split_ifs
        · exact ⟨_, .of_dispatcher isDispatcher taken _, .inl rfl⟩
        · exact ⟨_, .of_dispatcher isDispatcher (taken.trans (queued _ _)) _, .inr rfl⟩

end

structure Tracked where
  subscription : Subscription
  account : Nat → Account

namespace Tracked

/-- A consumer that is not there yet gets an empty account. -/
def openAccount (tracked : Tracked) (consumerId : Nat) : Nat → Account :=
  if consumerId ∈ tracked.subscription.dispatcherToJoin.consumers then tracked.account
  else update tracked.account consumerId ⟨0, tracked.subscription.delivered.length⟩

def grant (tracked : Tracked) (consumerId permits : Nat) : Nat → Account :=
  update tracked.account consumerId { tracked.account consumerId with
    granted := (tracked.account consumerId).granted + permits }

end Tracked

/-- An account is opened when a consumer joins, and Flow commands add to it. -/
def track (site : SubscriptionSite) (tracked : Tracked) (request : Request) : Tracked where
  subscription := tracked.subscription.handle site request
  account :=
    match request with
    | .addConsumer consumerId _ _ _ => tracked.openAccount consumerId
    | .flow consumerId permits => tracked.grant consumerId permits
    | _ => tracked.account

/-- Of any type, with every connected consumer within its account. -/
structure Solvent (site : SubscriptionSite) (subType : SubscriptionType) (tracked : Tracked) :
    Prop where
  isType : tracked.subscription.subType = subType
  covered : ∀ dispatcher, tracked.subscription.dispatcher = some dispatcher →
    dispatcher.getType = subType ∧ Covered (charge site.decode subType) tracked.account
      dispatcher.consumers tracked.subscription.delivered

section

variable {site : SubscriptionSite} {subType : SubscriptionType} {subscription : Subscription}
  {account : Nat → Account}

theorem Solvent.undisturbed (solvent : Solvent site subType ⟨subscription, account⟩)
    {after : Subscription} (undisturbed : Undisturbed subscription after) :
    Solvent site subType ⟨after, account⟩ := by
  refine ⟨undisturbed.isType.trans solvent.isType, ?_⟩
  intro dispatcher isDispatcher
  obtain ⟨old, isOld, same⟩ := undisturbed.standing dispatcher isDispatcher
  obtain ⟨isType, covered⟩ := solvent.covered old isOld
  refine ⟨same.isType.trans isType, ?_⟩
  dsimp only
  rw [undisturbed.delivered]
  exact covered.same same.everybody

theorem Solvent.dispatch (words : ∀ metadata, messagesInBatch site.decode metadata < 2 ^ 31)
    (solvent : Solvent site subType ⟨subscription, account⟩) (slots : ChannelSlots) :
    Solvent site subType ⟨subscription.dispatchMessages site slots, account⟩ := by
  unfold Subscription.dispatchMessages
  cases isDispatcher : subscription.dispatcher with
  | none => exact solvent
  | some dispatcher =>
    obtain ⟨rfl, covered⟩ := solvent.covered dispatcher isDispatcher
    refine ⟨solvent.isType, ?_⟩
    rintro after ⟨⟩
    have context : ∀ metadata,
      messagesInBatch (subscription.context site).decode metadata < 2 ^ 31 := words
    exact ⟨dispatch_messages_type _ _ _ _, Covered.dispatch context slots covered⟩

section

variable (solvent : Solvent site subType ⟨subscription, account⟩)
include solvent

theorem Solvent.to_join :
    subscription.dispatcherToJoin.getType = subType ∧ Covered (charge site.decode subType) account
      subscription.dispatcherToJoin.consumers subscription.delivered := by
  have reused : subscription.reuseOrCreateDispatcher.getType = subType ∧
      Covered (charge site.decode subType) account subscription.reuseOrCreateDispatcher.consumers
        subscription.delivered := by
    unfold reuseOrCreateDispatcher
    cases isDispatcher : subscription.dispatcher with
    | none =>
      refine ⟨by rw [new_type, solvent.isType], ?_⟩
      have nobody : (newWithKeySharedPolicy subscription.subType
          subscription.keySharedPolicy).consumers = OrderedMap.empty := by
        cases subscription.subType <;> rfl
      intro consumer absent
      rw [nobody] at absent
      exact absurd absent not_mem_bindings_empty
    | some dispatcher =>
      obtain ⟨isType, covered⟩ := solvent.covered dispatcher isDispatcher
      have same : subscription.subType = subType := solvent.isType
      simp only [isType, same, ne_eq, not_true_eq_false, decide_false, Bool.and_false,
        Bool.false_eq_true, if_false]
      exact ⟨trivial, covered⟩
  unfold dispatcherToJoin
  split
  next position _ =>
    have same : (subscription.reuseOrCreateDispatcher.initReadPosition position).consumers =
        subscription.reuseOrCreateDispatcher.consumers := by
      cases subscription.reuseOrCreateDispatcher <;> rfl
    rw [init_read_position_type, same]
    exact reused
  next => exact reused

theorem Solvent.join (consumerId : Nat)
    (name : Text) (priority : Int) (policy : Option KeySharedPolicy) :
    Solvent site subType (track site ⟨subscription, account⟩
      (.addConsumer consumerId name priority policy)) := by
  obtain ⟨isType, covered⟩ := solvent.to_join
  refine ⟨solvent.isType, ?_⟩
  rintro after ⟨⟩
  dsimp only [track, Tracked.openAccount]
  cases added : subscription.dispatcherToJoin.addConsumer consumerId
      (.new name priority policy) with
  | none =>
    refine ⟨isType, ?_⟩
    intro consumer member
    split_ifs with known
    · exact covered consumer member
    · have different : consumer.1 ≠ consumerId := by
        rintro rfl
        exact known (mem_of_binding member)
      rw [update_of_ne different]
      exact covered consumer member
  | some joined =>
    obtain ⟨fresh, isJoined⟩ := add_consumer_consumers added
    refine ⟨(add_consumer_type added).trans isType, ?_⟩
    rw [getD_some, isJoined, if_neg fresh]
    apply covered.put fun other different => update_of_ne different _ _
    rw [update_self]
    exact .new _ _ _

theorem Solvent.flow (consumerId permits : Nat) :
    Solvent site subType (track site ⟨subscription, account⟩ (.flow consumerId permits)) := by
  have unknown : (∀ dispatcher, subscription.dispatcher = some dispatcher →
      consumerId ∉ dispatcher.consumers) → Solvent site subType
        ⟨subscription, Tracked.grant ⟨subscription, account⟩ consumerId permits⟩ := by
    intro absent
    refine ⟨solvent.isType, ?_⟩
    intro dispatcher isDispatcher
    obtain ⟨isType, covered⟩ := solvent.covered dispatcher isDispatcher
    refine ⟨isType, ?_⟩
    intro consumer member
    have different : consumer.1 ≠ consumerId := by
      rintro rfl
      exact absent dispatcher isDispatcher (mem_of_binding member)
    dsimp only [Tracked.grant]
    rw [update_of_ne different]
    exact covered consumer member
  unfold track handle Subscription.flow
  dsimp only
  split
  next isNone => exact unknown fun dispatcher isSome => by rw [isNone] at isSome; cases isSome
  next dispatcher isDispatcher =>
    obtain ⟨isType, covered⟩ := solvent.covered dispatcher isDispatcher
    split
    next missing =>
      apply unknown
      intro other isOther
      cases isDispatcher.symm.trans isOther
      exact find_eq_none.mp missing
    next consumer found =>
      refine ⟨solvent.isType, ?_⟩
      rintro after ⟨⟩
      dsimp only [Tracked.grant]
      rw [consumer_flow_type, put_consumer_type, consumer_flow_consumers]
      refine ⟨isType, covered.put (fun other different => update_of_ne different _ _) ?_⟩
      rw [update_self]
      exact (covered _ (find_eq_some.mp found)).flow permits

end

variable (words : ∀ metadata, messagesInBatch site.decode metadata < 2 ^ 31)
include words

theorem Solvent.redeliver (solvent : Solvent site subType ⟨subscription, account⟩)
    (consumerId : Nat) (messageIds : List MessageId) (slots : ChannelSlots) :
    Solvent site subType ⟨(subscription.redeliverUnacknowledgedMessages site consumerId messageIds
      slots).2, account⟩ := by
  obtain ⟨between, undisturbed, same | same⟩ :=
    @redeliver_undisturbed site subscription consumerId messageIds slots
  · rw [same]
    exact solvent.undisturbed undisturbed
  · rw [same]
    exact (solvent.undisturbed undisturbed).dispatch words slots

theorem Solvent.leave (solvent : Solvent site subType ⟨subscription, account⟩) (consumerId : Nat)
    (slots : ChannelSlots) :
    Solvent site subType
      ⟨subscription.removeConsumerWithRecovery site consumerId slots, account⟩ := by
  unfold Subscription.removeConsumerWithRecovery
  split
  next => exact solvent
  next dispatcher isDispatcher =>
    obtain ⟨isType, covered⟩ := solvent.covered dispatcher isDispatcher
    have left : Solvent site subType ⟨{ subscription with
        dispatcher := some (dispatcher.removeConsumerWithRecovery
          (subscription.reader site) consumerId) }, account⟩ := by
      refine ⟨solvent.isType, ?_⟩
      rintro after ⟨⟩
      refine ⟨by rw [remove_consumer_type, isType], ?_⟩
      intro other isOther
      rcases remove_consumer_consumers (subscription.reader site) with same | erased
      · exact covered other (same ▸ isOther)
      · rw [erased] at isOther
        exact covered other (mem_bindings_erase.mp isOther).2
    have passed := left.dispatch words slots
    refine ⟨passed.isType, ?_⟩
    intro last isLast
    dsimp only at isLast
    exact passed.covered last (filter_eq_some_iff.mp isLast).1

theorem Solvent.track
    {tracked : Tracked} (solvent : Solvent site subType tracked) (request : Request) :
    Solvent site subType (track site tracked request) := by
  cases request with
  | publish items => exact ⟨solvent.isType, solvent.covered⟩
  | addConsumer consumerId name priority policy =>
    exact solvent.join consumerId name priority policy
  | flow consumerId permits => exact solvent.flow consumerId permits
  | dispatch slots => exact solvent.dispatch words slots
  | ack consumerId ackType messageIds walk =>
    exact solvent.undisturbed (.message_acked consumerId ackType messageIds walk)
  | redeliver consumerId messageIds slots =>
    exact solvent.redeliver words consumerId messageIds slots
  | removeConsumer consumerId slots => exact solvent.leave words consumerId slots
  | setWritable consumerId isWritable =>
    exact solvent.undisturbed (.set_writable consumerId isWritable)
  | seek consumerId messageId => exact solvent.undisturbed (.seek consumerId messageId)

end

/-- At any time a consumer was handed no more than its Flow commands granted, but for
the rest of one entry. -/
def FlowBound (site : SubscriptionSite) (tracked : Tracked) : Prop :=
  ∀ dispatcher, tracked.subscription.dispatcher = some dispatcher →
    ∀ consumerId ∈ dispatcher.consumers, ∀ handed,
      handed <+: tracked.subscription.delivered.drop (tracked.account consumerId).since →
        (handedCounts (messagesInBatch site.decode) consumerId handed).sum ≤
          (tracked.account consumerId).granted +
            (largest (handedCounts (messagesInBatch site.decode) consumerId handed) - 1)

theorem largest_le {bound : Nat} (each : ∀ count ∈ counts, count ≤ bound) :
    largest counts ≤ bound := by
  induction counts with
  | nil => exact Nat.zero_le _
  | cons first rest ih =>
    exact max_le (each first mem_cons_self)
      (ih fun count later => each count (mem_cons_of_mem _ later))

theorem one_active_bound {decode : Decode} {account : Account} {consumerId : Nat} {permits : Int}
    {delivered : List Delivery} (within : Within (fun _ => 1) account consumerId permits delivered)
    (early : handed <+: delivered.drop account.since)
    (single : ∀ delivery ∈ delivered, messagesInBatch decode delivery.metadata ≤ 1) :
    (handedCounts (messagesInBatch decode) consumerId handed).sum ≤ account.granted +
      (largest (handedCounts (messagesInBatch decode) consumerId handed) - 1) := by
  have entries := within.bound early
  have ones : largest (handedCounts (fun _ => 1) consumerId handed) ≤ 1 := by
    apply largest_le
    intro count isCount
    obtain ⟨_, _, rfl⟩ := mem_map.mp isCount
    exact le_refl 1
  calc (handedCounts (messagesInBatch decode) consumerId handed).sum
      ≤ (handedCounts (fun _ => 1) consumerId handed).sum :=
        sum_le_sum fun delivery isHanded => single delivery
          (mem_of_mem_drop (early.subset (mem_of_mem_filter isHanded)))
    _ ≤ account.granted := by omega
    _ ≤ _ := Nat.le_add_right _ _

def opened (start : Subscription) : Tracked where
  subscription := start
  account := fun _ => ⟨0, 0⟩

theorem handed_within_granted {site : SubscriptionSite} {subType : SubscriptionType}
    {keySharedPolicy : Option KeySharedPolicy} {options : CursorInitOptions}
    {store : ManagedLedgerStore} {start : Subscription} {tracked : Tracked}
    (words : ∀ metadata, messagesInBatch site.decode metadata < 2 ^ 31)
    (created : create site subType keySharedPolicy options store = .ok start)
    (run : Run (track site) (fun _ _ => True) (opened start) tracked)
    (single : subType = .exclusive ∨ subType = .failover →
      ∀ delivery ∈ tracked.subscription.delivered,
        messagesInBatch site.decode delivery.metadata ≤ 1) :
    FlowBound site tracked := by
  have solvent : Solvent site subType tracked := by
    apply run.invariant
    · unfold create at created
      split at created
      next => cases created
      next =>
        cases created
        exact ⟨rfl, nofun⟩
    · exact fun _ request between _ => between.track words request
  intro dispatcher isDispatcher consumerId isMember handed early
  obtain ⟨_, covered⟩ := solvent.covered dispatcher isDispatcher
  obtain ⟨consumer, member⟩ := mem_iff.mp isMember
  cases subType with
  | exclusive => exact one_active_bound (covered _ member) early (single (.inl rfl))
  | failover => exact one_active_bound (covered _ member) early (single (.inr rfl))
  | shared | keyShared => exact (covered _ member).bound early

def sampleGrant (permits : Nat) : List Request :=
  [.publish [sampleBatch], .publish [sampleBatch], .addConsumer 5 [] 0 none, .flow 5 permits,
    .dispatch []]

def sampleGranted (subType : SubscriptionType) (requests : List Request) : Tracked :=
  requests.foldl (track sampleSite) (opened (sampleStart subType))

theorem sample_words (metadata : Bytes) : messagesInBatch sampleSite.decode metadata < 2 ^ 31 :=
  (sample_batch_count metadata).trans_lt (by decide)

/-- Two batches are handed over, and the first once more after a seek. -/
theorem sample_handed_within_granted :
    FlowBound sampleSite (sampleGranted .shared (sampleGrant 25 ++
      [.seek 5 ⟨0, 0, -1⟩, .dispatch []])) := by
  have created : create sampleSite .shared none ⟨.earliest, none⟩ sampleStore =
    .ok (sampleStart .shared) := rfl
  exact handed_within_granted sample_words created (Run.of_list _ _ _) (Or.rec nofun nofun)

/-- Two permits pay for two entries of ten messages each. -/
theorem batches_exceed_the_grant :
    (∀ subType, create sampleSite subType none ⟨.earliest, none⟩ sampleStore =
        .ok (sampleStart subType) ∧
      Run (track sampleSite) (fun _ _ => True) (opened (sampleStart subType))
        (sampleGranted subType (sampleGrant 2))) ∧
    (∀ metadata, messagesInBatch sampleSite.decode metadata < 2 ^ 31) ∧
    ¬ FlowBound sampleSite (sampleGranted .exclusive (sampleGrant 2)) ∧
    ¬ FlowBound sampleSite (sampleGranted .failover (sampleGrant 2)) := by
  refine ⟨fun subType => ⟨rfl, Run.of_list _ _ _⟩, sample_words, ?_, ?_⟩
  · intro bound
    have twenty := bound _ rfl 5 (by decide) _ (prefix_refl _)
    exact absurd twenty (by decide)
  · intro bound
    have twenty := bound _ rfl 5 (by decide +kernel) _ (prefix_refl _)
    exact absurd twenty (by decide +kernel)

end PulsarLite.Broker.Subscription
