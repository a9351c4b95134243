import PulsarLite.Broker.KeySharedRun
import PulsarLite.Library.Precedence

/-!
# The order of the messages of a key

If out-of-order delivery is not allowed, a message is handed out for the first
time only after every earlier message of its key was handed out or acknowledged.
The messages before the read position, and those before a queued message of the
same key, were delivered or acknowledged, or they are queued themselves; a queued
message blocks its hash.
-/

namespace PulsarLite.Broker.KeySharedDispatcher

open Library Storage List OrderedMap RedeliveryController Subscription Held MultipleConsumers
  MessageId

variable {message : StoredMessage} {first messageId second : MessageId}

/-- Stored messages with the same sticky key hash, one before the other. -/
def EarlierOfKey (decode : Decode) (view : SubscriptionView) (first second : MessageId) : Prop :=
  ∃ early ∈ view.messages, ∃ late ∈ view.messages, early.messageId = first ∧
    late.messageId = second ∧ first.slot < second.slot ∧
    stickyKeyHashFromMetadata decode early.metadata =
      stickyKeyHashFromMetadata decode late.metadata

def deliveredIds (delivered : List Delivery) : List MessageId := delivered.map Delivery.messageId

@[simp] theorem delivered_ids_append (delivered delivery) :
    deliveredIds (delivered ++ [delivery]) = deliveredIds delivered ++ [delivery.messageId] := by
  simp [deliveredIds]

@[simp] theorem delivered_ids_length (delivered) :
    (deliveredIds delivered).length = delivered.length := by
  simp [deliveredIds]

/-- A message was delivered, or acknowledged by the time that so many messages were
delivered, or it is queued. -/
def Settled (ackedBy : Nat → MessageId → Prop) (dispatcher : KeySharedDispatcher)
    (delivered : List Delivery) (messageId : MessageId) : Prop :=
  messageId ∈ deliveredIds delivered ∨ ackedBy delivered.length messageId ∨
    messageId ∈ dispatcher.redeliveryController.entries

structure Ordered (decode : Decode) (ackedBy : Nat → MessageId → Prop) (view : SubscriptionView)
    (dispatcher : KeySharedDispatcher) (delivered : List Delivery) : Prop where
  blocks : dispatcher.redeliveryController.blockHashes = true
  noted : ∀ messageId, view.acked messageId.slot → ackedBy delivered.length messageId
  reached : ∀ position, dispatcher.readPosition = some position →
    Reached view (Settled ackedBy dispatcher delivered) position
  queued : ∀ later ∈ dispatcher.redeliveryController.entries, ∀ earlier,
    EarlierOfKey decode view earlier later → Settled ackedBy dispatcher delivered earlier
  follows : FirstsFollow (EarlierOfKey decode view) ackedBy (deliveredIds delivered)
  inFlight : ∀ inFlight ∈ dispatcher.redeliveryController.inFlightHashes.bindings,
    inFlight.1 ∈ deliveredIds delivered
  pending : ∀ messageId, dispatcher.Pends messageId → messageId ∈ deliveredIds delivered
  stored : ∀ messageId ∈ deliveredIds delivered, ∃ message ∈ view.messages,
    message.messageId = messageId

/-- What is acknowledged in some state was acknowledged by then. -/
def noting (ackedBy : Nat → MessageId → Prop) : Conditions :=
  { Conditions.none with
    watch := fun view delivered => ∀ messageId, view.acked messageId.slot →
      ackedBy delivered.length messageId }

section

variable {decode : Decode} {ackedBy : Nat → MessageId → Prop} {view after : SubscriptionView}
  {dispatcher changed : KeySharedDispatcher} {delivered : List Delivery}
  (later : ∀ early late messageId, early ≤ late → ackedBy early messageId → ackedBy late messageId)

theorem EarlierOfKey.of_grows (grows : view.Grows after) (lined : after.Lined)
    (stored : ∃ message ∈ view.messages, message.messageId = second)
    (earlier : EarlierOfKey decode after first second) : EarlierOfKey decode view first second := by
  obtain ⟨more, messages, _⟩ := grows.messages
  obtain ⟨old, isOld, rfl⟩ := stored
  obtain ⟨early, isEarly, late, isLate, rfl, same, before, sameKey⟩ := earlier
  have isAfter : old ∈ after.messages := messages ▸ mem_append_left _ isOld
  have isSame : late = old := lined.id_of_slot isLate isAfter (congrArg slot same)
  subst isSame
  have ordered := lined.increasing
  rw [messages] at isEarly ordered
  rcases mem_append.mp isEarly with inOld | inMore
  · exact ⟨early, inOld, late, isOld, rfl, rfl, before, sameKey⟩
  · exact absurd before ((pairwise_append.mp ordered).2.2 late isOld early inMore).not_gt

theorem EarlierOfKey.of_reacked (reacked : view.Reacked after)
    (earlier : EarlierOfKey decode after first second) : EarlierOfKey decode view first second := by
  unfold EarlierOfKey at earlier ⊢
  rw [reacked.messages] at earlier
  exact earlier

theorem Settled.swept {dropped : List MessageId}
    (settled : Settled ackedBy dispatcher delivered messageId)
    (gone : messageId ∈ dropped → ackedBy delivered.length messageId)
    (left : messageId ∉ dropped → messageId ∈ dispatcher.redeliveryController.entries →
      messageId ∈ changed.redeliveryController.entries) :
    Settled ackedBy changed delivered messageId := by
  rcases settled with isDelivered | isAcked | isQueued
  · exact .inl isDelivered
  · exact .inr (.inl isAcked)
  · by_cases isDropped : messageId ∈ dropped
    · exact .inr (.inl (gone isDropped))
    · exact .inr (.inr (left isDropped isQueued))

section

variable (ordered : Ordered decode ackedBy view dispatcher delivered)
include ordered

theorem Ordered.step {handed}
    (settles : ∀ message ∈ view.messages, Settled ackedBy dispatcher delivered message.messageId →
      Settled ackedBy changed handed message.messageId)
    (blocks : changed.redeliveryController.blockHashes =
      dispatcher.redeliveryController.blockHashes)
    (noted : ∀ messageId, view.acked messageId.slot → ackedBy handed.length messageId)
    (reached : ∀ position, changed.readPosition = some position →
      dispatcher.readPosition = some position ∨
      Reached view (Settled ackedBy changed handed) position)
    (queued : ∀ later ∈ changed.redeliveryController.entries,
      later ∈ dispatcher.redeliveryController.entries ∨
      ∀ earlier, EarlierOfKey decode view earlier later → Settled ackedBy changed handed earlier)
    (follows : FirstsFollow (EarlierOfKey decode view) ackedBy (deliveredIds handed))
    (inFlight : ∀ inFlight ∈ changed.redeliveryController.inFlightHashes.bindings,
      inFlight.1 ∈ deliveredIds handed)
    (pending : ∀ messageId, changed.Pends messageId → messageId ∈ deliveredIds handed)
    (stored : ∀ messageId ∈ deliveredIds handed, ∃ message ∈ view.messages, message.messageId =
      messageId) :
    Ordered decode ackedBy view changed handed := by
  refine ⟨blocks.trans ordered.blocks, noted, ?_, ?_, follows, inFlight, pending, stored⟩
  · intro position isPosition
    rcases reached position isPosition with old | new
    · exact (ordered.reached position old).mono fun message member settled =>
        .inr (settles message member settled)
    · exact new
  intro later isQueued earlier isEarlier
  rcases queued later isQueued with old | new
  · have settled := ordered.queued later old earlier isEarlier
    obtain ⟨early, isEarly, _, _, rfl, _⟩ := isEarlier
    exact settles early isEarly settled
  · exact new earlier isEarlier

theorem Ordered.dropped {dropped : List MessageId}
    (gone : ∀ messageId ∈ dropped, Gone view messageId) (member : message ∈ view.messages)
    (isDropped : message.messageId ∈ dropped) : ackedBy delivered.length message.messageId := by
  rcases gone _ isDropped with acked | missing
  · exact ordered.noted _ acked
  · exact absurd rfl (missing message member)

theorem Ordered.rearrange (dropped : List MessageId)
    (gone : ∀ messageId ∈ dropped, Gone view messageId)
    (left : ∀ messageId, messageId ∉ dropped → messageId ∈ dispatcher.redeliveryController.entries →
      messageId ∈ changed.redeliveryController.entries)
    (blocks : changed.redeliveryController.blockHashes =
      dispatcher.redeliveryController.blockHashes)
    (reached : ∀ position, changed.readPosition = some position →
      dispatcher.readPosition = some position ∨
      Reached view (Settled ackedBy changed delivered) position)
    (queued : ∀ later ∈ changed.redeliveryController.entries,
      later ∈ dispatcher.redeliveryController.entries ∨
      ∀ earlier, EarlierOfKey decode view earlier later → Settled ackedBy changed delivered earlier)
    (inFlight : ∀ inFlight ∈ changed.redeliveryController.inFlightHashes.bindings,
      inFlight.1 ∈ deliveredIds delivered)
    (pending : ∀ messageId, changed.Pends messageId → messageId ∈ deliveredIds delivered) :
    Ordered decode ackedBy view changed delivered := by
  apply ordered.step _ blocks ordered.noted reached queued ordered.follows inFlight pending
    ordered.stored
  intro message member settled
  apply settled.swept _ (left message.messageId)
  exact ordered.dropped gone member

end

include later in
theorem Ordered.earlier_settled (ordered : Ordered decode ackedBy view dispatcher delivered)
    (isDelivered : second ∈ deliveredIds delivered)
    (earlier : EarlierOfKey decode view first second) :
    first ∈ deliveredIds delivered ∨ ackedBy delivered.length first := by
  have settled := ordered.follows.mem later isDelivered earlier
  rwa [delivered_ids_length] at settled

include later in
theorem Ordered.requeue {entries : List RedeliveryEntry}
    (ordered : Ordered decode ackedBy view dispatcher delivered)
    (wasPending : ∀ entry ∈ entries, dispatcher.Pends entry.1)
    (isController : changed.redeliveryController = entries.foldl add
      dispatcher.redeliveryController)
    (isPosition : changed.readPosition = dispatcher.readPosition)
    (fewer : ∀ messageId, changed.Pends messageId → dispatcher.Pends messageId) :
    Ordered decode ackedBy view changed delivered := by
  apply ordered.rearrange []
  · simp
  · intro messageId _ isQueued
    rw [isController, mem_add_all]
    exact .inr isQueued
  · rw [isController, add_all_block]
  · intro position same
    exact .inl (isPosition ▸ same)
  · intro messageId isQueued
    rw [isController, mem_add_all] at isQueued
    rcases isQueued with ⟨entry, isEntry, rfl⟩ | old
    · refine .inr fun earlier isEarlier => ?_
      have isDelivered := ordered.pending _ (wasPending entry isEntry)
      rcases ordered.earlier_settled later isDelivered isEarlier with delivered | acked
      · exact .inl delivered
      · exact .inr (.inl acked)
    · exact .inl old
  · rw [isController, add_all_in_flight]
    exact ordered.inFlight
  · exact fun messageId pends => ordered.pending messageId (fewer messageId pends)

end

section

variable {context : DispatchContext} {ackedBy : Nat → MessageId → Prop} {view : SubscriptionView}
  {dispatcher changed : KeySharedDispatcher} {delivered : List Delivery}
  (later : ∀ early late messageId, early ≤ late → ackedBy early messageId → ackedBy late messageId)
  {delivery : Delivery}
include later in
theorem Settled.handed (settled : Settled ackedBy dispatcher delivered messageId)
    (left : messageId ∈ dispatcher.redeliveryController.entries → messageId = delivery.messageId ∨
      ackedBy delivered.length messageId ∨ messageId ∈ changed.redeliveryController.entries) :
    Settled ackedBy changed (delivered ++ [delivery]) messageId := by
  have longer : delivered.length ≤ (delivered ++ [delivery]).length := by simp
  unfold Settled
  rw [delivered_ids_append, mem_append, mem_singleton]
  rcases settled with isDelivered | isAcked | isQueued
  · exact .inl (.inl isDelivered)
  · exact .inr (.inl (later _ _ _ longer isAcked))
  · rcases left isQueued with isDelivery | isAcked | stays
    · exact .inl (.inr isDelivery)
    · exact .inr (.inl (later _ _ _ longer isAcked))
    · exact .inr (.inr stays)

theorem Ordered.candidate {candidate}
    (ordered : Ordered context.decode ackedBy view dispatcher delivered)
    (offered : Offered view dispatcher candidate message) (wider : MessageId → Prop)
    (weaker : ∀ message ∈ view.messages, Settled ackedBy dispatcher delivered message.messageId →
      wider message.messageId) :
    Candidate view wider candidate message := by
  refine offered.isCandidate wider ⟨?_, ?_⟩
  · intro messageId pends
    have isDelivered := ordered.pending messageId pends
    obtain ⟨stored, member, rfl⟩ := ordered.stored messageId isDelivered
    exact weaker stored member (.inl isDelivered)
  · intro position isPosition
    exact (ordered.reached position isPosition).mono fun message member settled =>
      .inr (weaker message member settled)

include later in
/-- What is before a message that is taken out of the queue, with its key, is not
waiting for its first delivery. -/
theorem Ordered.popped {dropped : List MessageId} {redelivery} {queued after}
    (ordered : Ordered context.decode ackedBy view dispatcher delivered)
    (sound : Sound context.decode view dispatcher.toMultipleConsumers) (lined : view.Lined)
    (gone : ∀ messageId ∈ dropped, Gone view messageId)
    (popped : Pops context view dispatcher dropped redelivery queued after) {earlier : MessageId}
    (isEarlier : EarlierOfKey context.decode view earlier redelivery.stored.messageId) :
    earlier ∈ deliveredIds delivered ∨ ackedBy delivered.length earlier := by
  have isQueued : redelivery.stored.messageId ∈ dispatcher.redeliveryController.entries :=
    mem_of_binding popped.listed
  rcases ordered.queued _ isQueued earlier isEarlier with isDelivered | isAcked | waits
  · exact .inl isDelivered
  · exact .inr isAcked
  obtain ⟨early, isEarly, late, isLate, rfl, same, before, sameKey⟩ := isEarlier
  have isStored : late = redelivery.stored :=
    lined.id_of_slot isLate popped.member (congrArg slot same)
  subst isStored
  obtain ⟨entry, isEntry⟩ := mem_iff.mp waits
  have hashes : queuedHash context entry early = queuedHash context queued redelivery.stored := by
    rw [sound.queued_hash lined isEarly isEntry, sound.queued_hash lined isLate popped.listed]
    exact sameKey
  have below : early.messageId < redelivery.stored.messageId :=
    (lined.id_lt isEarly isLate).mpr before
  rcases popped.skipped _ isEntry below with isDropped | ⟨message, member, isMessage, why⟩
  · exact .inr (ordered.dropped gone isEarly isDropped)
  have isSame : message = early := lined.id_of_slot member isEarly (congrArg slot isMessage)
  subst isSame
  rw [hashes] at why
  rcases why with none | inFlight | ⟨last, isDropped, beyond, inFlight⟩
  · rw [popped.selected] at none
    cases none
  · rw [popped.free] at inFlight
    cases inFlight
  -- the hash was in flight for a message that came later, so this one came first
  obtain ⟨lastMessage, isLast, rfl, isHash⟩ := sound.inFlight _ inFlight
  apply ordered.earlier_settled later (ordered.inFlight _ inFlight)
  refine ⟨message, isEarly, lastMessage, isLast, rfl, rfl,
    (lined.id_lt isEarly isLast).mp beyond, ?_⟩
  rw [← hashes, sound.queued_hash lined isEarly isEntry] at isHash
  exact Option.some.inj isHash

include later in
theorem Ordered.deliver (ordered : Ordered context.decode ackedBy view dispatcher delivered)
    (member : message ∈ view.messages) (isMessage : delivery.messageId = message.messageId)
    (new : ∀ earlier, EarlierOfKey context.decode view earlier message.messageId →
      earlier ∈ deliveredIds delivered ∨ ackedBy delivered.length earlier)
    (left : ∀ other ∈ view.messages, other.messageId ∈ dispatcher.redeliveryController.entries →
      other.messageId = message.messageId ∨ ackedBy delivered.length other.messageId ∨
      other.messageId ∈ changed.redeliveryController.entries)
    (fewer : ∀ messageId ∈ changed.redeliveryController.entries,
      messageId ∈ dispatcher.redeliveryController.entries)
    (blocks : changed.redeliveryController.blockHashes =
      dispatcher.redeliveryController.blockHashes)
    (reached : ∀ position, changed.readPosition = some position →
      dispatcher.readPosition = some position ∨
      Reached view (Settled ackedBy changed (delivered ++ [delivery])) position)
    (inFlight : ∀ inFlight ∈ changed.redeliveryController.inFlightHashes.bindings, inFlight.1 =
      message.messageId ∨ inFlight ∈ dispatcher.redeliveryController.inFlightHashes.bindings)
    (pending : ∀ messageId, changed.Pends messageId → messageId = message.messageId ∨
      dispatcher.Pends messageId) :
    Ordered context.decode ackedBy view changed (delivered ++ [delivery]) := by
  have longer : delivered.length ≤ (delivered ++ [delivery]).length := by simp
  have isDelivered messageId : messageId = message.messageId ∨ messageId ∈ deliveredIds delivered →
      messageId ∈ deliveredIds (delivered ++ [delivery]) := by
    intro either
    rw [delivered_ids_append, mem_append, mem_singleton, isMessage]
    exact either.symm
  apply ordered.step _ blocks _ reached (fun messageId isQueued => .inl (fewer messageId isQueued))
  · rw [delivered_ids_append]
    apply ordered.follows.append
    intro _ earlier isEarlier
    rw [delivered_ids_length]
    exact new earlier (isMessage ▸ isEarlier)
  · intro flying isFlying
    exact isDelivered _ ((inFlight flying isFlying).imp_right (ordered.inFlight flying))
  · intro messageId pends
    exact isDelivered _ ((pending messageId pends).imp_right (ordered.pending messageId))
  · intro messageId isHanded
    rw [delivered_ids_append, mem_append, mem_singleton] at isHanded
    rcases isHanded with old | rfl
    · exact ordered.stored messageId old
    · exact ⟨message, member, isMessage.symm⟩
  · intro other isOther settled
    apply settled.handed later
    rw [isMessage]
    exact left other isOther
  · exact fun messageId acked => later _ _ _ longer (ordered.noted messageId acked)

theorem Ordered.postpone {candidate}
    (ordered : Ordered context.decode ackedBy view dispatcher delivered) (lined : view.Lined)
    (offered : Offered view dispatcher candidate message)
    (isQueue : ∀ messageId, messageId ∈ changed.redeliveryController.entries ↔
      messageId = message.messageId ∨ messageId ∈ dispatcher.redeliveryController.entries)
    (blocks : changed.redeliveryController.blockHashes =
      dispatcher.redeliveryController.blockHashes)
    (isPosition : changed.readPosition = some candidate.nextPosition)
    (inFlight : ∀ inFlight ∈ changed.redeliveryController.inFlightHashes.bindings,
      inFlight ∈ dispatcher.redeliveryController.inFlightHashes.bindings)
    (pending : ∀ messageId, changed.Pends messageId → dispatcher.Pends messageId) :
    Ordered context.decode ackedBy view changed delivered := by
  have waiting : Candidate view (Settled ackedBy changed delivered) candidate message := by
    apply ordered.candidate offered
    intro other _ settled
    exact settled.imp_right (Or.imp_right fun isQueued => (isQueue _).mpr (.inr isQueued))
  apply ordered.rearrange []
  · simp
  · exact fun messageId _ isQueued => (isQueue messageId).mpr (.inr isQueued)
  · exact blocks
  · intro position same
    cases isPosition.symm.trans same
    exact .inr (waiting.reached lined (.inr (.inr (.inr ((isQueue _).mpr (.inl rfl))))))
  · intro messageId isQueued
    rcases (isQueue messageId).mp isQueued with rfl | old
    · refine .inr ?_
      rintro _ ⟨early, isEarly, _, _, rfl, _, isBefore, _⟩
      rcases waiting.passed early isEarly isBefore with acked | settled
      · exact .inr (.inl (ordered.noted _ acked))
      · exact settled
    · exact .inl old
  · exact fun flying isFlying => ordered.inFlight flying (inFlight flying isFlying)
  · exact fun messageId pends => ordered.pending messageId (pending messageId pends)

include later in
theorem Move.ordered {before after : Course} (move : Move context view before after)
    (lined : view.Lined) (sound : Sound context.decode view before.dispatcher.toMultipleConsumers)
    (ordered : Ordered context.decode ackedBy view before.dispatcher before.delivered) :
    Ordered context.decode ackedBy view after.dispatcher after.delivered := by
  cases move with
  | swept dropped gone =>
    apply ordered.rearrange dropped gone
    · exact fun messageId isLeft isQueued =>
        mem_sweep.mpr ⟨isLeft, isQueued⟩
    · exact sweep_block
    · exact fun _ same => .inl same
    · exact fun _ isQueued => .inl (mem_sweep.mp isQueued).2
    · exact fun _ isFlying =>
        ordered.inFlight _ (mem_sweep_in_flight.mp isFlying).2
    · exact ordered.pending
  | advanced readPosition reached =>
    apply ordered.rearrange []
    · simp
    · exact fun _ _ isQueued => isQueued
    · rfl
    · intro position isPosition
      exact .inr (reached _ ⟨fun _ pends => .inl (ordered.pending _ pends), ordered.reached⟩
        position isPosition)
    · exact fun _ isQueued => .inl isQueued
    · exact ordered.inFlight
    · exact ordered.pending
  | redelivered dropped redelivery queued after gone popped permits total =>
    obtain ⟨_, isConsumer, _⟩ := select_consumer_some popped.selected
    have entries := popped.taken.entries
    apply ordered.deliver later popped.member rfl
    · exact fun earlier isEarlier => ordered.popped later sound lined gone popped isEarlier
    · intro other isOther isQueued
      by_cases isMessage : other.messageId = redelivery.stored.messageId
      · exact .inl isMessage
      by_cases isDropped : other.messageId ∈ dropped
      · exact .inr (.inl (ordered.dropped gone isOther isDropped))
      · refine .inr (.inr ?_)
        rw [entries, mem_erase, mem_sweep]
        exact ⟨isMessage, isDropped, isQueued⟩
    · intro messageId isQueued
      rw [entries, mem_erase, mem_sweep] at isQueued
      exact isQueued.2.2
    · exact popped.taken.blocks.trans sweep_block
    · exact fun _ same => .inl same
    · intro flying isFlying
      rcases popped.taken.flying isFlying with isMessage | swept
      · exact .inl isMessage
      · exact .inr (mem_sweep_in_flight.mp swept).2
    · exact fun _ pends => (held_sent isConsumer).mp pends
  | restored dropped redelivery queued after gone popped count unsent total bounced =>
    obtain ⟨_, isConsumer, _⟩ := select_consumer_some popped.selected
    have entries := popped.taken.entries
    have isQueued : redelivery.stored.messageId ∈ before.dispatcher.redeliveryController.entries :=
      mem_of_binding popped.listed
    apply ordered.rearrange dropped gone
    · intro messageId isLeft isQueued
      rw [mem_restore, entries, mem_erase, mem_sweep, or_iff_not_imp_left]
      exact fun different => ⟨different, isLeft, isQueued⟩
    · rw [restore_block]
      exact popped.taken.blocks.trans sweep_block
    · exact fun _ same => .inl same
    · intro messageId isRestored
      rw [mem_restore, entries, mem_erase, mem_sweep] at isRestored
      rcases isRestored with rfl | ⟨_, _, old⟩
      · exact .inl isQueued
      · exact .inl old
    · intro flying isFlying
      obtain ⟨different, isFlying⟩ := mem_restore_in_flight.mp isFlying
      rcases popped.taken.flying isFlying with isMessage | swept
      · exact absurd isMessage different
      · exact ordered.inFlight _ (mem_sweep_in_flight.mp swept).2
    · exact fun messageId pends =>
        ordered.pending messageId (of_fewer isConsumer bounced.fewer pends)
  | blocked candidate message offered =>
    apply ordered.postpone lined offered
    · exact fun _ => mem_add
    · exact add_block
    · rfl
    · intro flying isFlying
      rwa [add_in_flight] at isFlying
    · exact fun _ pends => pends
  | handed candidate message offered free consumerId consumer selected permits total =>
    obtain ⟨_, isConsumer, _⟩ := select_consumer_some selected
    have waiting := ordered.candidate offered _ fun _ _ settled => settled
    apply ordered.deliver later offered.member rfl
    · rintro _ ⟨early, isEarly, late, isLate, rfl, same, isBefore, sameKey⟩
      rcases waiting.passed early isEarly isBefore with acked | isDelivered | isAcked | waits
      · exact .inr (ordered.noted _ acked)
      · exact .inl isDelivered
      · exact .inr isAcked
      -- a queued message would have blocked the hash
      obtain ⟨entry, isEntry⟩ := mem_iff.mp waits
      have isMessage : late = message := lined.id_of_slot isLate offered.member (congrArg slot same)
      have isHash := (sound.queued _ isEntry).hash_eq lined isEarly
      rw [sameKey, isMessage] at isHash
      exact absurd isHash ((sound.counted.unblocked ordered.blocks free).1 _ isEntry)
    · exact fun other _ isQueued => .inr (.inr isQueued)
    · exact fun _ isQueued => isQueued
    · rfl
    · rintro position ⟨⟩
      refine .inr (Candidate.reached lined (ordered.candidate offered _ ?_) (.inr (.inl ?_)))
      · exact fun other _ settled => settled.handed later fun isQueued => .inr (.inr isQueued)
      · rw [delivered_ids_append]
        exact mem_append_right _ mem_cons_self
    · exact fun _ isFlying => .inr isFlying
    · exact fun _ pends => (held_sent isConsumer).mp pends
  | deferred candidate message offered consumerId consumer unsent total selected bounced =>
    obtain ⟨_, isConsumer, _⟩ := select_consumer_some selected
    apply ordered.postpone lined offered
    · exact fun _ => mem_restore
    · exact restore_block
    · rfl
    · exact fun flying isFlying => (mem_restore_in_flight.mp isFlying).2
    · exact fun _ pends => of_fewer isConsumer bounced.fewer pends

end

variable {site : SubscriptionSite} {partition : Int} {keySharedPolicy : Option KeySharedPolicy}
  {ackedBy : Nat → MessageId → Prop}

theorem ordered_invariant
    (later : ∀ early late messageId, early ≤ late → ackedBy early messageId →
      ackedBy late messageId)
    (inOrder : ∀ policy, keySharedPolicy = some policy → policy.allowOutOfOrderDelivery = false) :
    KeySharedInvariant site keySharedPolicy (noting ackedBy) (Ordered site.decode ackedBy) where
  created := by
    intro view readPosition noted reached
    refine ⟨?_, noted, ?_, ?_, FirstsFollow.nil, ?_, ?_, by simp [deliveredIds]⟩
    · cases keySharedPolicy with
      | none => rfl
      | some policy => simp [new, RedeliveryController.new, inOrder policy rfl]
    · exact fun position isPosition => (reached position isPosition).mono fun _ _ => False.elim
    · exact fun _ absent => absurd absent not_mem_empty
    · exact fun _ absent => absurd absent not_mem_bindings_empty
    · rintro messageId ⟨_, absent, _⟩
      exact absurd absent not_mem_bindings_empty
  changed := by
    intro view dispatcher delivered rebuilt later common ordered sound change
    cases change with
    | published grows lined noted =>
      have kept : ∀ messageId, (∃ message ∈ view.messages, message.messageId = messageId) →
          ∃ message ∈ later.messages, message.messageId = messageId := by
        rintro messageId ⟨message, member, same⟩
        obtain ⟨more, messages, _⟩ := grows.messages
        exact ⟨message, messages ▸ mem_append_left _ member, same⟩
      refine ⟨ordered.blocks, noted, ?_, ?_, ?_, ordered.inFlight, ordered.pending, ?_⟩
      · exact fun position isPosition => (ordered.reached position isPosition).grows grows
      · intro latter isQueued earlier isEarlier
        obtain ⟨entry, isEntry⟩ := mem_iff.mp isQueued
        obtain ⟨message, member, same, _⟩ := sound.queued _ isEntry
        exact ordered.queued latter isQueued earlier (isEarlier.of_grows grows lined
          ⟨message, member, same⟩)
      · apply ordered.follows.narrow
        intro messageId isDelivered earlier isEarlier
        exact isEarlier.of_grows grows lined (ordered.stored messageId isDelivered)
      · exact fun messageId isDelivered => kept messageId (ordered.stored messageId isDelivered)
    | joined =>
      refine ⟨ordered.blocks, ordered.noted, ordered.reached, ordered.queued, ordered.follows,
        ordered.inFlight, ?_, ordered.stored⟩
      rintro messageId ⟨consumer, member, pending⟩
      rcases mem_bindings_insert.mp member with rfl | ⟨_, old⟩
      · exact absurd pending not_mem_empty
      · exact ordered.pending messageId ⟨consumer, old, pending⟩
    | tuned thinned =>
      exact ⟨ordered.blocks, ordered.noted, ordered.reached, ordered.queued, ordered.follows,
        ordered.inFlight, fun messageId pends => ordered.pending messageId (thinned.held pends),
        ordered.stored⟩
    | @acked _ dropped consumers _ _ firstUnacked thinned _ reacked presents first _ acked _
        noted =>
      have settles messageId : Settled ackedBy dispatcher delivered messageId →
          Settled ackedBy { dispatcher with
            consumers := consumers
            redeliveryController := dispatcher.redeliveryController.sweep dropped
            readPosition := readPositionAfterAck dispatcher.readPosition
              firstUnacked } delivered messageId := by
        intro settled
        apply settled.swept
        · exact fun isDropped => noted messageId (acked messageId isDropped)
        · exact fun isLeft isQueued => mem_sweep.mpr ⟨isLeft, isQueued⟩
      refine ⟨sweep_block.trans ordered.blocks, noted, ?_, ?_, ?_, ?_, ?_, ?_⟩
      · apply read_position_after_ack_reached presents first
        intro position isPosition
        apply (ordered.reached position isPosition).reacked reacked
        · exact fun message _ wasAcked => .inr (.inr (.inl (ordered.noted _ wasAcked)))
        · exact fun message _ settled => .inr (settles _ settled)
      · intro latter isQueued earlier isEarlier
        exact settles earlier (ordered.queued latter (mem_sweep.mp isQueued).2
          earlier (isEarlier.of_reacked reacked))
      · exact ordered.follows.narrow fun _ _ _ isEarlier => isEarlier.of_reacked reacked
      · exact fun flying isFlying =>
          ordered.inFlight flying (mem_sweep_in_flight.mp isFlying).2
      · exact fun messageId pends => ordered.pending messageId (thinned.held pends)
      · rw [reacked.messages]
        exact ordered.stored
    | @returned consumerId consumer messageIds reader _ _ member =>
      have returned := take_for_redelivery_spec messageIds consumer
      refine ordered.requeue later ?_ rfl rfl ?_
      · intro entry isEntry
        obtain ⟨pending, isPending, rfl⟩ := returned.pending entry (mem_filter.mp isEntry).1
        have held : pending.1 ∈ consumer.pendingAcks := mem_of_binding isPending
        exact of_binding member held
      · exact fun _ pends => (returned.thinned member).held pends
    | @left consumerId consumer _ _ member _ labelled =>
      cases labelled rfl
      refine ordered.requeue later ?_ rfl rfl ?_
      · intro entry isEntry
        obtain ⟨pending, isPending, rfl⟩ := mem_map.mp isEntry
        have held : pending.1 ∈ consumer.pendingAcks := mem_of_binding isPending
        exact of_binding member held
      · exact fun _ pends => of_erase pends
    | unknown =>
      exact ⟨ordered.blocks, ordered.noted, ordered.reached, ordered.queued, ordered.follows,
        ordered.inFlight, ordered.pending, ordered.stored⟩
  moved := by
    rintro context view before after decoder move lined sound ordered
    rw [← decoder] at sound ordered ⊢
    exact move.ordered later lined sound ordered

section

variable (site : SubscriptionSite) (start : Subscription) (requests : List Subscription.Request)

def stateAfter (count : Nat) : Subscription :=
  (requests.take count).foldl (handle site) start

/-- A message was acknowledged in a state in which no more messages were delivered. -/
def AckedBy (delivered : Nat) (messageId : MessageId) : Prop :=
  ∃ count, (stateAfter site start requests count).delivered.length ≤ delivered ∧
    ((stateAfter site start requests count).reader site).isAcknowledged messageId = true

end

theorem permits_noting {start requests}
    (permits : Run.Permits (handle site) (Permitted site partition Conditions.none) start requests)
    (noted : ∀ count messageId,
      ((stateAfter site start requests count).reader site).isAcknowledged messageId = true →
      ackedBy (stateAfter site start requests count).delivered.length messageId) :
    Run.Permits (handle site) (Permitted site partition (noting ackedBy)) start requests := by
  induction requests generalizing start with
  | nil => trivial
  | cons request requests ih =>
    refine ⟨⟨?_, ?_⟩, ih permits.2 fun count => noted (count + 1)⟩
    · have permitted := permits.1.1
      cases request <;> exact permitted
    · intro view serves messageId acked
      exact noted 1 messageId ((serves.presents.acknowledged messageId).mpr acked)

/-- If out-of-order delivery is not allowed, a message is delivered for the first
time only after each earlier message with its sticky key hash was delivered for
the first time or acknowledged. -/
theorem first_deliveries_in_key_order {start : Subscription}
    {requests : List Subscription.Request} {before after : List Delivery} {delivery : Delivery}
    {first second : StoredMessage}
    (inOrder : ∀ policy, keySharedPolicy = some policy → policy.allowOutOfOrderDelivery = false)
    (started : Started site partition .keyShared keySharedPolicy start)
    (permits : Run.Permits (handle site) (Permitted site partition Conditions.none) start requests)
    (split : (requests.foldl (handle site) start).delivered = before ++ delivery :: after)
    (isSecond : delivery.messageId = second.messageId)
    (isFirstTime : ∀ earlier ∈ before, earlier.messageId ≠ second.messageId)
    (firstStored : ((requests.foldl (handle site) start).reader site).getMessageEntryById
      first.messageId = some first)
    (secondStored : ((requests.foldl (handle site) start).reader site).getMessageEntryById
      second.messageId = some second)
    (isEarlier : first.messageId < second.messageId)
    (sameKey : stickyKeyHashFromMetadata site.decode first.metadata =
      stickyKeyHashFromMetadata site.decode second.metadata) :
    (∃ earlier ∈ before, earlier.messageId = first.messageId) ∨
      AckedBy site start requests before.length first.messageId := by
  let ackedBy := AckedBy site start requests
  have later : ∀ early late messageId, early ≤ late → ackedBy early messageId →
      ackedBy late messageId := by
    rintro early late messageId longer ⟨count, fewer, acked⟩
    exact ⟨count, fewer.trans longer, acked⟩
  have noted count messageId :
      ((stateAfter site start requests count).reader site).isAcknowledged messageId = true →
        ackedBy (stateAfter site start requests count).delivered.length messageId :=
    fun acked => ⟨count, le_refl _, acked⟩
  have watched : Watched site partition (noting ackedBy) start := by
    intro view serves messageId acked
    exact noted 0 messageId ((serves.presents.acknowledged messageId).mpr acked)
  obtain ⟨view, sustains⟩ := (ordered_invariant later inOrder).invariant.run (.inr rfl) started
    watched False.elim (Run.of_permits (permits_noting permits noted))
  have presents := sustains.serves.presents
  obtain ⟨isFirst, _⟩ := (presents.entry _ _).mp firstStored
  obtain ⟨isStored, _⟩ := (presents.entry _ _).mp secondStored
  cases isDispatcher : (requests.foldl (handle site) start).dispatcher with
  | none =>
    rw [(sustains.idle isDispatcher).1] at split
    simp at split
  | some dispatcher =>
    obtain ⟨_, _, keyShared, rfl, _, _, ordered⟩ := sustains.busy dispatcher isDispatcher
    have follows := ordered.follows (deliveredIds before) delivery.messageId (deliveredIds after)
      (by rw [split]; simp [deliveredIds]) (by simpa [deliveredIds, isSecond] using isFirstTime)
      first.messageId (by
        rw [isSecond]
        exact ⟨first, isFirst, second, isStored, rfl, rfl,
          (presents.lined.id_lt isFirst isStored).mp isEarlier, sameKey⟩)
    rw [delivered_ids_length] at follows
    simpa [deliveredIds] using follows

def sampleInOrder : List Subscription.Request :=
  [.publish [sampleItem], .publish [sampleItem], .addConsumer 5 [] 0 none, .flow 5 10, .dispatch []]

theorem sample_first_deliveries_in_key_order :
    (∃ earlier ∈ [(⟨5, (sampleMessage 0).messageId, [255], 0⟩ : Delivery)],
      earlier.messageId = (sampleMessage 0).messageId) ∨
      AckedBy sampleSite (sampleStart .keyShared) sampleInOrder 1 (sampleMessage 0).messageId := by
  have inOrder : ∀ policy, (none : Option KeySharedPolicy) = some policy →
      policy.allowOutOfOrderDelivery = false := nofun
  have permits : Run.Permits (handle sampleSite) (Permitted sampleSite (-1) Conditions.none)
      (sampleStart .keyShared) sampleInOrder := by
    refine ⟨⟨⟨sample_publishable, ?_⟩, fun _ _ => trivial⟩,
      ⟨⟨sample_publishable, ?_⟩, fun _ _ => trivial⟩,
      ⟨trivial, fun _ _ => trivial⟩, ⟨fun _ _ => trivial, fun _ _ => trivial⟩,
      ⟨trivial, fun _ _ => trivial⟩, trivial⟩
    all_goals
      rintro ledger ⟨⟩
      decide
  have split : (samplePlay .keyShared sampleInOrder).delivered =
      [⟨5, (sampleMessage 0).messageId, [255], 0⟩] ++
        ⟨5, (sampleMessage 1).messageId, [255], 0⟩ :: [] := by
    decide
  apply first_deliveries_in_key_order inOrder (sample_started .keyShared) permits split
  · exact rfl
  · decide
  · exact (rfl : ((samplePlay .keyShared sampleInOrder).reader sampleSite).getMessageEntryById
      (sampleMessage 0).messageId = some (sampleMessage 0))
  · exact (rfl : ((samplePlay .keyShared sampleInOrder).reader sampleSite).getMessageEntryById
      (sampleMessage 1).messageId = some (sampleMessage 1))
  · decide
  · rfl

end PulsarLite.Broker.KeySharedDispatcher
