import PulsarLite.Broker.FlowControl

/-!
# Acknowledged as often as taken

Both loops of an Ack command pass a message on to the store as often as they take it from
a consumer that holds it.
-/

namespace PulsarLite.Broker.Subscription

open Library Storage OrderedMap DispatcherEnum

variable {owner : Nat} {consumer : Consumer} {tracked messageId : MessageId}

def holders (consumers : OrderedMap Nat Consumer) (messageId : MessageId) : Nat :=
  consumers.count fun consumer => consumer.hasPendingAck messageId

theorem holders_remove {consumers : OrderedMap Nat Consumer}
    (member : (owner, consumer) ∈ consumers.bindings) (pending : tracked ∈ consumer.pendingAcks)
    (messageId : MessageId) :
    (if tracked = messageId then 1 else 0) +
        holders (consumers.insert owner (consumer.removePendingAck tracked)) messageId =
      holders consumers messageId := by
  have left : (consumer.removePendingAck tracked).hasPendingAck messageId = true ↔
      messageId ≠ tracked ∧ consumer.hasPendingAck messageId = true := by
    simp [Consumer.hasPendingAck, Consumer.removePendingAck]
  have held : consumer.hasPendingAck tracked = true := decide_eq_true pending
  rw [holders, holders, count_erase _ member, count_insert]
  by_cases same : tracked = messageId
  · subst same
    simp [left, held, Nat.add_comm]
  · simp [left, same, Ne.symm same]

/-- What is taken of a message and what is still held of it make up what was held. -/
def Accounts (before : DispatcherEnum) (taken : List MessageId × DispatcherEnum)
    (messageId : MessageId) : Prop :=
  taken.1.count messageId + holders taken.2.consumers messageId =
    holders before.consumers messageId

theorem Accounts.cons {dispatcher : DispatcherEnum} {taken}
    (member : (owner, consumer) ∈ dispatcher.consumers.bindings)
    (pending : tracked ∈ consumer.pendingAcks) (later : Accounts
      (dispatcher.putConsumer owner (consumer.removePendingAck tracked)) taken messageId) :
    Accounts dispatcher (tracked :: taken.1, taken.2) messageId := by
  have removed := holders_remove member pending messageId
  unfold Accounts at later ⊢
  rw [put_consumer_consumers] at later
  rw [List.count_cons]
  simp only [beq_iff_eq]
  omega

end PulsarLite.Broker.Subscription
