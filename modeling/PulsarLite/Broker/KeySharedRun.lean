import PulsarLite.Broker.CommonRun

/-!
# Runs of a KeyShared subscription

Whatever happens, the hash that is kept with a pending, queued or in-flight
message is the hash of its key, and no queued or in-flight message is missing in
the counts of blocked hashes. The properties of KeyShared runs are proved on top
of this, change by change.
-/

namespace PulsarLite.Broker.KeySharedDispatcher

open Library Storage RedeliveryController OrderedMap MultipleConsumers List DispatcherEnum
  Subscription

variable {consumer : Consumer} {dispatcher : KeySharedDispatcher} {entries : List RedeliveryEntry}
  {common : MultipleConsumers} {queued : PendingAck} {message : StoredMessage}
  {entry : RedeliveryEntry}

/-- A message is stored, and the hash is the one of its key. -/
def Labelled (decode : Decode) (view : SubscriptionView) (messageId : MessageId)
    (hash : Option Int) : Prop :=
  ∃ message ∈ view.messages, message.messageId = messageId ∧
    hash = some (stickyKeyHashFromMetadata decode message.metadata)

structure Sound (decode : Decode) (view : SubscriptionView) (common : MultipleConsumers) :
    Prop where
  pending : EachPending common.consumers fun _ pending =>
    Labelled decode view pending.1 pending.2.stickyKeyHash
  queued : ∀ queued ∈ common.redeliveryController.entries.bindings,
    Labelled decode view queued.1 queued.2.stickyKeyHash
  inFlight : ∀ inFlight ∈ common.redeliveryController.inFlightHashes.bindings,
    Labelled decode view inFlight.1 (some inFlight.2)
  counted : common.redeliveryController.Counted

section

variable {decode : Decode} {view after : SubscriptionView} {messageId : MessageId}
  {hash : Option Int}

theorem Labelled.grows (labelled : Labelled decode view messageId hash) (grows : view.Grows after) :
    Labelled decode after messageId hash := by
  obtain ⟨message, member, spec⟩ := labelled
  obtain ⟨more, messages, _⟩ := grows.messages
  exact ⟨message, messages ▸ mem_append_left _ member, spec⟩

theorem Labelled.reacked (labelled : Labelled decode view messageId hash)
    (reacked : view.Reacked after) :
    Labelled decode after messageId hash := by
  obtain ⟨message, member, spec⟩ := labelled
  exact ⟨message, reacked.messages ▸ member, spec⟩

theorem Labelled.hash_eq (lined : view.Lined)
    (labelled : Labelled decode view message.messageId hash) (member : message ∈ view.messages) :
    hash = some (stickyKeyHashFromMetadata decode message.metadata) := by
  obtain ⟨other, isOther, same, isHash⟩ := labelled
  rw [isHash, lined.id_of_slot isOther member (congrArg MessageId.slot same)]

theorem Sound.over (sound : Sound decode view common)
    (labelled : ∀ messageId hash, Labelled decode view messageId hash →
      Labelled decode after messageId hash) : Sound decode after common where
  pending consumer member pending isPending :=
    labelled _ _ (sound.pending consumer member pending isPending)
  queued queued member := labelled _ _ (sound.queued queued member)
  inFlight inFlight member := labelled _ _ (sound.inFlight inFlight member)
  counted := sound.counted

theorem Sound.with_consumers {consumers} {total : Int} (sound : Sound decode view common)
    (pending : EachPending consumers fun _ pending =>
      Labelled decode view pending.1 pending.2.stickyKeyHash) :
    Sound decode view { common with
      consumers := consumers
      totalAvailablePermits := total } :=
  { sound with pending := pending }

variable (sound : Sound decode view common)
include sound

theorem Sound.with_position {readPosition : Option ManagedLedgerPosition} :
    Sound decode view { common with readPosition := readPosition } :=
  { sound with }

theorem Sound.swept (dropped : List MessageId) :
    Sound decode view { common with
      redeliveryController := common.redeliveryController.sweep dropped } :=
  { sound with
    queued queued member := sound.queued queued (mem_sweep_entries.mp member).2
    inFlight inFlight member := sound.inFlight inFlight (mem_sweep_in_flight.mp member).2
    counted := sound.counted.sweep }

theorem Sound.requeued
    (labelled : ∀ entry ∈ entries, Labelled decode view entry.1 entry.2.stickyKeyHash) :
    Sound decode view (common.addRedeliveryEntries entries) :=
  { sound with
    queued := hashes_add_all sound.queued labelled
    inFlight inFlight member := by
      rw [addRedeliveryEntries, add_all_in_flight] at member
      exact sound.inFlight inFlight member
    counted := sound.counted.add_all }

theorem Sound.restored (labelled : Labelled decode view entry.1 entry.2.stickyKeyHash) :
    Sound decode view (common.restoreRedeliveryMessage entry) :=
  { sound with
    queued := hashes_restore sound.queued labelled
    inFlight inFlight member := sound.inFlight inFlight (mem_restore_in_flight.mp member).2
    counted := sound.counted.restore }

theorem Sound.taken {hash after} (labelled : Labelled decode view messageId (some hash))
    (taken : common.redeliveryController.Taken messageId hash queued after) :
    Sound decode view { common with redeliveryController := after } :=
  { sound with
    queued other member := by
      rw [taken.entries] at member
      exact sound.queued other (mem_bindings_erase.mp member).2
    inFlight inFlight member := by
      rw [taken.inFlight] at member
      split_ifs at member
      · rcases mem_bindings_insert.mp member with rfl | ⟨_, old⟩
        · exact labelled
        · exact sound.inFlight inFlight old
      · exact sound.inFlight inFlight member
    counted := sound.counted.take taken }

end

variable {context : DispatchContext} {view : SubscriptionView}

theorem Sound.queued_hash (sound : Sound context.decode view common) (lined : view.Lined)
    (member : message ∈ view.messages)
    (listed : (message.messageId, queued) ∈ common.redeliveryController.entries.bindings) :
    queuedHash context queued message = hashOf context message := by
  have isHash : queued.stickyKeyHash = _ := (sound.queued _ listed).hash_eq lined member
  rw [queuedHash, isHash]
  rfl

theorem Sound.popped {dropped redelivery after}
    (sound : Sound context.decode view dispatcher.toMultipleConsumers) (lined : view.Lined)
    (popped : Pops context view dispatcher dropped redelivery queued after) :
    Labelled context.decode view redelivery.stored.messageId
        (some (queuedHash context queued redelivery.stored)) ∧
      Sound context.decode view { dispatcher.toMultipleConsumers with
        redeliveryController := after } := by
  have labelled : Labelled context.decode view redelivery.stored.messageId
      (some (queuedHash context queued redelivery.stored)) := by
    rw [sound.queued_hash lined popped.member popped.listed]
    exact ⟨redelivery.stored, popped.member, rfl, rfl⟩
  exact ⟨labelled, (sound.swept dropped).taken labelled popped.taken⟩

theorem Move.sound {before after : Course} (move : Move context view before after)
    (lined : view.Lined) (sound : Sound context.decode view before.dispatcher.toMultipleConsumers) :
    Sound context.decode view after.dispatcher.toMultipleConsumers := by
  cases move with
  | swept dropped gone => exact sound.swept dropped
  | advanced readPosition reached => exact sound.with_position
  | redelivered dropped redelivery queued after gone popped permits total =>
    obtain ⟨labelled, taken⟩ := sound.popped lined popped
    obtain ⟨_, member, _⟩ := select_consumer_some popped.selected
    exact taken.with_consumers (sound.pending.sent member labelled)
  | restored dropped redelivery queued after gone popped count unsent total bounced =>
    obtain ⟨labelled, taken⟩ := sound.popped lined popped
    obtain ⟨_, member, _⟩ := select_consumer_some popped.selected
    exact (taken.with_consumers (sound.pending.fewer member bounced.fewer)).restored labelled
  | blocked candidate message offered =>
    have labelled : ∀ entry ∈ [((message.messageId, ⟨0, some (hashOf context message)⟩) :
        RedeliveryEntry)], Labelled context.decode view entry.1 entry.2.stickyKeyHash := by
      intro entry isEntry
      rw [mem_singleton.mp isEntry]
      exact ⟨message, offered.member, rfl, rfl⟩
    exact (sound.requeued labelled).with_position
  | handed candidate message offered free consumerId consumer selected permits total =>
    obtain ⟨_, member, _⟩ := select_consumer_some selected
    exact (sound.with_position).with_consumers
      (sound.pending.sent member ⟨message, offered.member, rfl, rfl⟩)
  | deferred candidate message offered consumerId consumer unsent total selected bounced =>
    obtain ⟨_, member, _⟩ := select_consumer_some selected
    exact ((sound.with_position).with_consumers
      (sound.pending.fewer member bounced.fewer)).restored ⟨message, offered.member, rfl, rfl⟩

variable (site : SubscriptionSite) (keySharedPolicy : Option KeySharedPolicy)
  (conditions : Conditions)

/-- An invariant of a KeyShared dispatcher, beside what is sound anyway. -/
structure KeySharedInvariant
    (holds : SubscriptionView → KeySharedDispatcher → List Delivery → Prop) : Prop where
  created : ∀ {view readPosition}, conditions.watch view [] →
    (∀ position, readPosition = some position → Reached view (fun _ => False) position) →
    holds view { new keySharedPolicy with readPosition := readPosition } []
  changed : ∀ {view dispatcher delivered rebuilt later common}, holds view dispatcher delivered →
    Sound site.decode view dispatcher.toMultipleConsumers →
    Change conditions (.keyShared dispatcher) delivered view dispatcher.toMultipleConsumers rebuilt
      later common → holds later (dispatcher.settle rebuilt common) delivered
  moved : ∀ {context view before after}, context.decode = site.decode →
    Move context view before after → view.Lined →
    Sound site.decode view before.dispatcher.toMultipleConsumers →
    holds view before.dispatcher before.delivered → holds view after.dispatcher after.delivered

variable {site keySharedPolicy conditions}
  {holds : SubscriptionView → KeySharedDispatcher → List Delivery → Prop}

/-- A KeyShared dispatcher that is rooted and sound and meets an invariant. -/
def Meets (site : SubscriptionSite)
    (holds : SubscriptionView → KeySharedDispatcher → List Delivery → Prop)
    (view : SubscriptionView) (dispatcher : DispatcherEnum) (delivered : List Delivery) : Prop :=
  ∃ keyShared : KeySharedDispatcher, dispatcher = .keyShared keyShared ∧
    Rooted view keyShared.toMultipleConsumers ∧
    Sound site.decode view keyShared.toMultipleConsumers ∧ holds view keyShared delivered

variable {decode : Decode} {consumerId : Nat}

theorem redelivered_labelled (sound : Sound decode view common)
    (member : (consumerId, consumer) ∈ common.consumers.bindings)
    (isEntry : ∃ pending ∈ consumer.pendingAcks.bindings, entry = redeliveryOf pending) :
    Labelled decode view entry.1 entry.2.stickyKeyHash := by
  obtain ⟨pending, isPending, rfl⟩ := isEntry
  exact sound.pending _ member pending isPending

theorem Sound.change {conditions : Conditions} {delivered : List Delivery} {rebuilt : Bool}
    {later : SubscriptionView} {after : MultipleConsumers} (sound : Sound decode view common)
    (change : Change conditions (.keyShared dispatcher) delivered view common rebuilt later after) :
    Sound decode later after := by
  cases change with
  | published grows => exact sound.over fun _ _ labelled => labelled.grows grows
  | joined =>
    exact sound.with_consumers (sound.pending.insert fun _ absent =>
      absurd absent not_mem_bindings_empty)
  | tuned thinned => exact sound.with_consumers (thinned.each sound.pending)
  | acked thinned _ reacked =>
    have still : Sound decode later common :=
      sound.over fun _ _ labelled => labelled.reacked reacked
    exact ((still.with_consumers (thinned.each still.pending)).swept _).with_position
  | @returned consumerId consumer messageIds reader _ _ member =>
    have returned := take_for_redelivery_spec messageIds consumer
    apply (sound.with_consumers (sound.pending.fewer member returned.fewer)).requeued
    intro entry isEntry
    exact redelivered_labelled sound member (returned.pending entry (mem_filter.mp isEntry).1)
  | left _ member _ labelled =>
    cases labelled rfl
    apply (sound.with_consumers sound.pending.erase).requeued
    intro entry isEntry
    obtain ⟨pending, isPending, rfl⟩ := mem_map.mp isEntry
    exact redelivered_labelled sound member ⟨pending, isPending, rfl⟩
  | unknown => exact sound

theorem KeySharedInvariant.invariant
    (invariant : KeySharedInvariant site keySharedPolicy conditions holds) :
    Invariant site .keyShared keySharedPolicy conditions (Meets site holds) where
  multiple := by
    rintro view _ delivered ⟨dispatcher, rfl, _⟩
    exact ⟨_, rfl⟩
  stored := by
    rintro view _ delivered _ ⟨dispatcher, rfl, rooted, _⟩ ⟨⟩
    exact rooted.stored
  created := by
    intro view readPosition watch reached
    refine ⟨_, rfl, .created _ reached, ⟨?_, ?_, ?_, counted_new _⟩,
      invariant.created watch reached⟩
    all_goals exact fun _ member => absurd member not_mem_bindings_empty
  changed := by
    rintro view _ delivered _ rebuilt later next after ⟨dispatcher, rfl, rooted, sound, held⟩ ⟨⟩
      change replaces
    have same : (dispatcher.settle rebuilt next).toMultipleConsumers = next := by
      cases rebuilt <;> rfl
    refine ⟨_, replaces.settled dispatcher rfl, ?_, ?_, invariant.changed held sound change⟩
    · rw [same]
      exact rooted.change change
    · rw [same]
      exact sound.change change
  passed := by
    rintro view _ delivered reader slots ⟨dispatcher, rfl, rooted, sound, before⟩ presents
    let context : DispatchContext := ⟨reader, site.decode, site.fuel⟩
    let held : Course → Prop := fun course =>
      Rooted view course.dispatcher.toMultipleConsumers ∧
        Sound site.decode view course.dispatcher.toMultipleConsumers ∧
        holds view course.dispatcher course.delivered
    have kept before after : Move context view before after → before.dispatcher.Ready view →
        held before → held after := by
      rintro move _ ⟨rooted, sound, between⟩
      exact ⟨rooted.step (move.step presents.lined), move.sound presents.lined sound,
        invariant.moved rfl move presents.lined sound between⟩
    obtain ⟨_, after⟩ := dispatch_messages_keeps presents kept ⟨dispatcher, slots, delivered, 0⟩
      ⟨rooted.ready, rooted, sound, before⟩
    exact ⟨_, rfl, after⟩

end PulsarLite.Broker.KeySharedDispatcher
