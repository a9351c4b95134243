import PulsarLite.Broker.StickyKey
import PulsarLite.Library.OrderedMap
import PulsarLite.Storage.Keys
import PulsarLite.Storage.Position

/-!
# Consumers

A consumer has permits, the messages that it was handed and has not acknowledged,
and a bounded channel to its connection. The id of a consumer is its key in the
map of its dispatcher. Permits are an `i32` whose atomic additions wrap.
-/

namespace PulsarLite.Broker

open Library Storage

def wrapI32 (value : Int) : Int := value.bmod (2 ^ 32)

theorem wrap_i32_of_fits {value : Int} (low : -(2 ^ 31) ≤ value) (high : value < 2 ^ 31) :
    wrapI32 value = value := by
  apply Int.bmod_eq_of_le
  · omega
  · omega

structure KeySharedHashRange where
  start : Int
  stop : Int
deriving DecidableEq

inductive KeySharedMode
  | autoSplit
  | sticky
deriving DecidableEq

structure KeySharedPolicy where
  mode : KeySharedMode
  ranges : List KeySharedHashRange
  allowOutOfOrderDelivery : Bool
deriving DecidableEq

structure PendingAck where
  redeliveryCount : Nat
  stickyKeyHash : Option Int
deriving DecidableEq

structure Consumer where
  consumerName : Text
  priorityLevel : Int
  keySharedPolicy : Option KeySharedPolicy
  availablePermits : Int
  pendingAcks : OrderedMap MessageId PendingAck
  closed : Bool
  isWritable : Bool
deriving DecidableEq

structure Delivery where
  consumerId : Nat
  messageId : MessageId
  metadata : Bytes
  redeliveryCount : Nat
deriving DecidableEq

abbrev ChannelSlots := List Bool

namespace Consumer

def new (consumerName : Text) (priorityLevel : Int) (keySharedPolicy : Option KeySharedPolicy) :
    Consumer where
  consumerName := consumerName
  priorityLevel := priorityLevel
  keySharedPolicy := keySharedPolicy
  availablePermits := 0
  pendingAcks := .empty
  closed := false
  isWritable := true

variable (consumer : Consumer)

def addPermits (permits : Nat) : Consumer :=
  { consumer with availablePermits := wrapI32 (consumer.availablePermits + permits) }

/-- The balance may become negative: an entry of many messages needs one permit only. -/
def tryUsePermits (count : Nat) : Option Consumer :=
  if 0 < consumer.availablePermits then
    some { consumer with availablePermits := wrapI32 (consumer.availablePermits - count) }
  else none

def usePermit : Option Consumer := consumer.tryUsePermits 1

def availablePermitsNow : Nat := consumer.availablePermits.toNat

variable (messageId : MessageId) (redeliveryCount : Nat)

/-- The pending ack is written before the channel is tried, and taken back if it is full. -/
def sendMessageWithStickyHash (stickyKeyHash : Option Int) (slots : ChannelSlots) :
    Bool × Consumer × ChannelSlots :=
  if !consumer.isWritable || consumer.closed then (false, consumer, slots)
  else if slots.headD true then
    (true, { consumer with pendingAcks := consumer.pendingAcks.insert messageId {
      redeliveryCount := redeliveryCount
      stickyKeyHash := stickyKeyHash } }, slots.tail)
  else
    (false, { consumer with pendingAcks := consumer.pendingAcks.erase messageId }, slots.tail)

variable (slots : ChannelSlots)

def sendMessage : Bool × Consumer × ChannelSlots :=
  consumer.sendMessageWithStickyHash messageId redeliveryCount none slots

def enqueueMessage : Bool × Consumer × ChannelSlots :=
  consumer.sendMessage messageId 0 slots

def hasPendingAck : Bool :=
  decide (messageId ∈ consumer.pendingAcks)

def removePendingAck : Consumer :=
  { consumer with pendingAcks := consumer.pendingAcks.erase messageId }

def findPendingAckByPosition (ledger entry : Nat) : Option MessageId :=
  consumer.pendingAcks.keys.find? fun messageId =>
    decide (messageId.ledger = ledger ∧ messageId.entry = entry)

def closePendingAcks : Consumer := { consumer with closed := true }

def drainPendingAcks : List (MessageId × PendingAck) × Consumer :=
  (consumer.pendingAcks.bindings, { consumer with pendingAcks := .empty })

variable {consumer : Consumer} {messageId : MessageId} {redeliveryCount : Nat}
  {stickyKeyHash : Option Int} {slots : ChannelSlots}

theorem send_sent (sent : (consumer.sendMessageWithStickyHash messageId redeliveryCount
      stickyKeyHash slots).1 = true) :
    (consumer.sendMessageWithStickyHash messageId redeliveryCount stickyKeyHash slots).2.1 =
      { consumer with
        pendingAcks :=
          consumer.pendingAcks.insert messageId ⟨redeliveryCount, stickyKeyHash⟩ } := by
  unfold sendMessageWithStickyHash at sent ⊢
  split_ifs at sent ⊢ with refused room
  · rfl

theorem send_refused (refused : (consumer.sendMessageWithStickyHash messageId redeliveryCount
      stickyKeyHash slots).1 = false) :
    (consumer.sendMessageWithStickyHash messageId redeliveryCount stickyKeyHash slots).2.1 =
        consumer ∨
      (consumer.sendMessageWithStickyHash messageId redeliveryCount stickyKeyHash slots).2.1 =
        consumer.removePendingAck messageId := by
  unfold sendMessageWithStickyHash at refused ⊢
  split_ifs at refused ⊢ with blocked room
  · exact Or.inl rfl
  · exact Or.inr rfl

theorem send_eq (writable : consumer.isWritable = true) (isOpen : consumer.closed = false)
    (room : slots.headD true = true) :
    consumer.sendMessageWithStickyHash messageId redeliveryCount stickyKeyHash slots =
      (true, { consumer with
        pendingAcks := consumer.pendingAcks.insert messageId ⟨redeliveryCount, stickyKeyHash⟩ },
        slots.tail) := by
  simp only [sendMessageWithStickyHash, writable, isOpen, room]
  rfl

/-- The consumer after a failed attempt to send it a message. -/
def Bounced (consumer : Consumer) (messageId : MessageId) (after : Consumer) : Prop :=
  ∃ permits, after = { consumer with availablePermits := permits } ∨
    after = { consumer with
      availablePermits := permits
      pendingAcks := consumer.pendingAcks.erase messageId }

variable {after : Consumer}

section

variable (bounced : Bounced consumer messageId after)
include bounced

theorem Bounced.closed :
    after.closed = consumer.closed := by
  obtain ⟨permits, rfl | rfl⟩ := bounced <;> rfl

theorem Bounced.level :
    after.priorityLevel = consumer.priorityLevel := by
  obtain ⟨permits, rfl | rfl⟩ := bounced <;> rfl

theorem Bounced.fewer :
    ∀ pending ∈ after.pendingAcks.bindings, pending ∈ consumer.pendingAcks.bindings := by
  intro pending member
  obtain ⟨permits, rfl | rfl⟩ := bounced
  · exact member
  · exact (OrderedMap.mem_bindings_erase.mp member).2

theorem Bounced.kept {other : MessageId}
    (pending : other ∈ consumer.pendingAcks) : other = messageId ∨ other ∈ after.pendingAcks := by
  obtain ⟨permits, rfl | rfl⟩ := bounced
  · exact Or.inr pending
  · rw [or_iff_not_imp_left]
    exact fun different => OrderedMap.mem_erase.mpr ⟨different, pending⟩

end

theorem send_charged (positive : 0 < consumer.availablePermits) (batchCount : Nat)
    (messageId : MessageId) (redeliveryCount stickyKeyHash) (slots) :
    ∃ charged, consumer.tryUsePermits batchCount = some charged ∧
      ∃ sent after left, charged.sendMessageWithStickyHash messageId redeliveryCount stickyKeyHash
          slots = (sent, after, left) ∧
        (sent = true → after = { consumer with
          availablePermits := wrapI32 (consumer.availablePermits - batchCount)
          pendingAcks := consumer.pendingAcks.insert messageId
            ⟨redeliveryCount, stickyKeyHash⟩ }) ∧
        (sent = false → Bounced consumer messageId (after.addPermits batchCount) ∧
          (after.addPermits batchCount).availablePermits =
            wrapI32 (wrapI32 (consumer.availablePermits - batchCount) + batchCount)) := by
  let charged : Consumer :=
    { consumer with availablePermits := wrapI32 (consumer.availablePermits - batchCount) }
  let result := charged.sendMessageWithStickyHash messageId redeliveryCount stickyKeyHash slots
  refine ⟨charged, if_pos positive, result.1, result.2.1, result.2.2, rfl, ?_, ?_⟩
  · exact fun isSent => send_sent isSent
  intro notSent
  rcases send_refused notSent with same | removed
  · rw [same]
    exact ⟨⟨_, Or.inl rfl⟩, rfl⟩
  · rw [removed]
    exact ⟨⟨_, Or.inr rfl⟩, rfl⟩

end Consumer

end PulsarLite.Broker
