import PulsarLite.Broker.ReadPosition
import PulsarLite.Library.Rounds

/-!
# What the dispatchers with many consumers have in common

Shared and KeyShared keep a map of consumers, an aggregate of permits, a read
position and a redelivery controller. What they do when messages are acknowledged
or to be delivered again is the same code.
-/

namespace PulsarLite.Broker

open Library Storage OrderedMap

def dispatcherMaxRoundRobinBatchSize : Nat := 20

/-- What a pass has at hand: the answers of the store, the decoder of metadata, and
a bound on the rounds of every loop. -/
structure DispatchContext where
  reader : SubscriptionReader
  decode : Decode
  fuel : Nat

/-- A pass under way. The deliveries are those of all passes so far; `progress`
counts within a batch. -/
structure Pass (δ : Type) where
  dispatcher : δ
  slots : ChannelSlots
  delivered : List Delivery
  progress : Nat

variable (consumers : OrderedMap Nat Consumer)

def Held (messageId : MessageId) : Prop :=
  ∃ consumer ∈ consumers.bindings, messageId ∈ consumer.2.pendingAcks

/-- Something holds of every pending message, and of the consumer that has it. -/
def EachPending (fits : Nat → MessageId × PendingAck → Prop) : Prop :=
  ∀ consumer ∈ consumers.bindings, ∀ pending ∈ consumer.2.pendingAcks.bindings,
    fits consumer.1 pending

variable {consumers : OrderedMap Nat Consumer} {consumerId : Nat} {consumer after : Consumer}
  {messageId other : MessageId} {fits : Nat → MessageId × PendingAck → Prop}

section

variable (each : EachPending consumers fits)
include each

theorem EachPending.held (held : Held consumers messageId) :
    ∃ consumerId pending, fits consumerId (messageId, pending) := by
  obtain ⟨consumer, member, isPending⟩ := held
  obtain ⟨pending, bound⟩ := mem_iff.mp isPending
  exact ⟨consumer.1, pending, each consumer member _ bound⟩

theorem EachPending.insert
    (new : ∀ pending ∈ consumer.pendingAcks.bindings, fits consumerId pending) :
    EachPending (consumers.insert consumerId consumer) fits := by
  intro other isOther
  rcases mem_bindings_insert.mp isOther with rfl | ⟨_, old⟩
  · exact new
  · exact each other old

section

variable (member : (consumerId, consumer) ∈ consumers.bindings)
include member

theorem EachPending.sent {pending : PendingAck} {permits : Int}
    (new : fits consumerId (messageId, pending)) :
    EachPending (consumers.insert consumerId { consumer with
      availablePermits := permits
      pendingAcks := consumer.pendingAcks.insert messageId pending }) fits := by
  apply each.insert
  intro other isOther
  rcases mem_bindings_insert.mp isOther with rfl | ⟨_, old⟩
  · exact new
  · exact each _ member other old

theorem EachPending.fewer
    (fewer : ∀ pending ∈ after.pendingAcks.bindings, pending ∈ consumer.pendingAcks.bindings) :
    EachPending (consumers.insert consumerId after) fits :=
  each.insert fun pending isPending => each _ member pending (fewer pending isPending)

end

theorem EachPending.erase : EachPending (consumers.erase consumerId) fits :=
  fun consumer member => each consumer (mem_bindings_erase.mp member).2

end

theorem Held.of_binding (member : (consumerId, consumer) ∈ consumers.bindings)
    (pending : messageId ∈ consumer.pendingAcks) : Held consumers messageId :=
  ⟨_, member, pending⟩

theorem held_insert : Held (consumers.insert consumerId after) other ↔ other ∈ after.pendingAcks ∨
      ∃ holder ∈ consumers.bindings, holder.1 ≠ consumerId ∧ other ∈ holder.2.pendingAcks := by
  constructor
  · rintro ⟨holder, isHolder, pending⟩
    rcases mem_bindings_insert.mp isHolder with rfl | ⟨different, old⟩
    · exact .inl pending
    · exact .inr ⟨holder, old, different, pending⟩
  · rintro (pending | ⟨holder, old, different, pending⟩)
    · exact ⟨_, mem_bindings_insert.mpr (.inl rfl), pending⟩
    · exact ⟨holder, mem_bindings_insert.mpr (.inr ⟨different, old⟩), pending⟩

section

variable (member : (consumerId, consumer) ∈ consumers.bindings)
include member

theorem held_split : Held consumers other ↔ other ∈ consumer.pendingAcks ∨
      ∃ holder ∈ consumers.bindings, holder.1 ≠ consumerId ∧ other ∈ holder.2.pendingAcks := by
  constructor
  · rintro ⟨holder, isHolder, pending⟩
    by_cases same : holder.1 = consumerId
    · have isConsumer : holder = (consumerId, consumer) := value_unique isHolder member same
      subst isConsumer
      exact .inl pending
    · exact .inr ⟨holder, isHolder, same, pending⟩
  · rintro (pending | ⟨holder, isHolder, _, pending⟩)
    · exact ⟨_, member, pending⟩
    · exact ⟨holder, isHolder, pending⟩

theorem held_sent {pending : PendingAck} {permits : Int} :
    Held (consumers.insert consumerId { consumer with
      availablePermits := permits
      pendingAcks := consumer.pendingAcks.insert messageId pending }) other ↔
        other = messageId ∨ Held consumers other := by
  rw [held_insert, held_split member, mem_insert, or_assoc]

theorem Held.of_fewer
    (fewer : ∀ pending ∈ after.pendingAcks.bindings, pending ∈ consumer.pendingAcks.bindings)
    (held : Held (consumers.insert consumerId after) other) : Held consumers other := by
  rw [held_insert] at held
  rw [held_split member]
  apply held.imp_left
  intro pending
  obtain ⟨ack, isAck⟩ := mem_iff.mp pending
  exact mem_of_binding (fewer _ isAck)

end

theorem Held.of_erase (held : Held (consumers.erase consumerId) other) : Held consumers other := by
  obtain ⟨holder, isHolder, pending⟩ := held
  exact ⟨holder, (mem_bindings_erase.mp isHolder).2, pending⟩

theorem Held.bounced (member : (consumerId, consumer) ∈ consumers.bindings)
    (bounced : Consumer.Bounced consumer messageId after) (held : Held consumers other) :
    other = messageId ∨ Held (consumers.insert consumerId after) other := by
  rw [held_split member] at held
  rw [held_insert, ← or_assoc]
  exact held.imp_left bounced.kept

structure MultipleConsumers where
  consumers : OrderedMap Nat Consumer
  totalAvailablePermits : Int
  readPosition : Option ManagedLedgerPosition
  redeliveryController : RedeliveryController

namespace MultipleConsumers

variable (dispatcher : MultipleConsumers) (permits : Nat) {settled : MessageId → Prop}

/-- An `i32` that stays at its least value. -/
def subtractTotalPermits : MultipleConsumers :=
  { dispatcher with
    totalAvailablePermits := max (-(2 ^ 31)) (dispatcher.totalAvailablePermits - permits) }

/-- `fetch_sub` on the aggregate, which wraps. -/
def chargeTotalPermits : MultipleConsumers :=
  { dispatcher with
    totalAvailablePermits := wrapI32 (dispatcher.totalAvailablePermits - permits) }

/-- `fetch_add` on the aggregate, which wraps. -/
def addTotalPermits : MultipleConsumers :=
  { dispatcher with
    totalAvailablePermits := wrapI32 (dispatcher.totalAvailablePermits + permits) }

def putConsumer (consumerId : Nat) (consumer : Consumer) : MultipleConsumers :=
  { dispatcher with consumers := dispatcher.consumers.insert consumerId consumer }

def addRedeliveryEntries (entries : List RedeliveryEntry) : MultipleConsumers :=
  { dispatcher with
    redeliveryController := entries.foldl .add dispatcher.redeliveryController }

def addToRedeliveryQueue (entries : List (MessageId × Nat)) : MultipleConsumers :=
  dispatcher.addRedeliveryEntries (entries.map fun entry => (entry.1, ⟨entry.2, none⟩))

def restoreRedeliveryMessage (entry : RedeliveryEntry) : MultipleConsumers :=
  { dispatcher with redeliveryController := dispatcher.redeliveryController.restore entry }

def commitReadPosition (nextPosition : ManagedLedgerPosition) : MultipleConsumers :=
  { dispatcher with readPosition := some nextPosition }

variable (messageId : MessageId)

def onMessageAcknowledged : MultipleConsumers :=
  { dispatcher with redeliveryController := dispatcher.redeliveryController.remove messageId }

/-- Where an acknowledgement leaves the read position. -/
def readPositionAfterAck (readPosition firstUnacked : Option ManagedLedgerPosition) :
    Option ManagedLedgerPosition :=
  match readPosition, firstUnacked with
  | some current, some firstUnacked => if current < firstUnacked then some firstUnacked
      else some current
  | some _, none => none
  | none, _ => none

theorem read_position_after_ack_reached {reader : SubscriptionReader} {view : SubscriptionView}
    {readPosition firstUnacked : Option ManagedLedgerPosition}
    (presents : Presents reader view) (first : reader.firstUnackedPosition = .ok firstUnacked)
    (reached : ∀ position, readPosition = some position → Reached view settled position) :
    ∀ position, readPositionAfterAck readPosition firstUnacked = some position →
      Reached view settled position := by
  intro position isPosition
  unfold readPositionAfterAck at isPosition
  split at isPosition
  next current firstUnacked =>
    split_ifs at isPosition with before
    · cases isPosition
      exact first_reached presents first _ rfl
    · cases isPosition
      exact reached _ rfl
  next => cases isPosition
  next => cases isPosition

def onAckStateUpdated (reader : SubscriptionReader) (dispatcher : MultipleConsumers) :
    Except DispatchError Unit × MultipleConsumers :=
  match reader.firstUnackedPosition with
  | .error failure => (.error failure, dispatcher)
  | .ok firstUnacked =>
    let ackedRedeliveries := dispatcher.redeliveryController.queuedMessageIds.filter
      reader.isAcknowledged
    (.ok (), { dispatcher with
      redeliveryController := ackedRedeliveries.foldl .remove
        dispatcher.redeliveryController
      readPosition := readPositionAfterAck dispatcher.readPosition firstUnacked })

def Pends : Prop :=
  Held dispatcher.consumers messageId

variable (view : SubscriptionView)

def Ready : Prop :=
  ∀ position, dispatcher.readPosition = some position → view.Readable position

/-- What is pending is settled, and so is everything before the read position that is not
acknowledged. -/
structure Settles (settled : MessageId → Prop) : Prop where
  pends : ∀ messageId, dispatcher.Pends messageId → settled messageId
  reached : ∀ position, dispatcher.readPosition = some position → Reached view settled position

/-- A message that is read from the read position on. -/
structure Offers (candidate : ReadCandidate) (message : StoredMessage) : Prop where
  member : message ∈ view.messages
  messageId : candidate.messageId = message.messageId
  metadata : candidate.metadata = message.metadata
  readable : view.Readable candidate.nextPosition
  isCandidate : ∀ settled, dispatcher.Settles view settled →
    Candidate view settled candidate message

variable {dispatcher view}

theorem Ready.settles (ready : dispatcher.Ready view) : dispatcher.Settles view fun _ => True :=
  ⟨fun _ _ => trivial, fun position isPosition =>
    ⟨ready position isPosition, fun _ _ _ => .inr trivial⟩⟩

section

variable {reader : SubscriptionReader} {isMessagePending : MessageId → Bool}
  (presents : Presents reader view)
  (pending : ∀ messageId, isMessagePending messageId = true → dispatcher.Pends messageId)
  (scans fuel : Nat)
include presents pending

theorem Settles.read (settles : dispatcher.Settles view settled) :
    ∀ position, (nextDispatchableMessage reader isMessagePending scans fuel
      dispatcher.readPosition).2 = some position → Reached view settled position :=
  (next_dispatchable_message_spec presents scans fuel
    (fun messageId isPending => settles.pends messageId (pending messageId isPending))
    settles.reached).1

theorem Ready.offers (ready : dispatcher.Ready view) (candidate : ReadCandidate)
    (found : (nextDispatchableMessage reader isMessagePending scans fuel
      dispatcher.readPosition).1 = .ok (some candidate)) :
    isMessagePending candidate.messageId = false ∧
      ∃ message, dispatcher.Offers view candidate message := by
  have reading {settled : MessageId → Prop} (settles : dispatcher.Settles view settled) :
      isMessagePending candidate.messageId = false ∧
        ∃ message, Found view settled dispatcher.readPosition candidate message := by
    obtain ⟨_, answer, asked, spec⟩ := next_dispatchable_message_spec presents scans fuel
      (fun messageId isPending => settles.pends messageId (pending messageId isPending))
      settles.reached
    cases asked.symm.trans found
    exact spec candidate rfl
  obtain ⟨free, message, first⟩ := reading ready.settles
  refine ⟨free, message, first.member, first.messageId, first.metadata, first.readable, ?_⟩
  intro settled settles
  obtain ⟨_, other, isOther⟩ := reading settles
  have same : other = message := by
    apply presents.lined.id_of_slot isOther.member first.member
    rw [← isOther.messageId, first.messageId]
  exact same ▸ isOther.toCandidate

end

end MultipleConsumers

end PulsarLite.Broker
