import PulsarLite.Storage.MemoryStore
import PulsarLite.Storage.Serving

/-!
# The store behind the broker

A broker has one of the two backends. A dispatcher asks it five questions about
its topic and its subscription; the answers are put together in a reader. What
the dispatchers rely on is said once, over a view: the messages of the topic in
their order, the acknowledged slots, and the slot the next message cannot be
below.
-/

namespace PulsarLite.Storage

open RocksDbManagedLedgerStorage

inductive ManagedLedgerStore
  | memory (storage : InMemoryManagedLedgerStorage)
  | rocksDb (storage : RocksDbManagedLedgerStorage)

def nextPositionSingleLedger (current : ManagedLedgerPosition) : ManagedLedgerPosition :=
  { current with entryId := (current.entryId + 1) % u64Modulus }

/-- The answers of a store to the questions about one subscription. Neither
backend ever fails to say whether a message is acknowledged. -/
structure SubscriptionReader where
  firstUnackedPosition : Except RocksDbManagedLedgerStorage.TopicReadError
    (Option ManagedLedgerPosition)
  readEntriesFrom : ManagedLedgerPosition → Nat →
    Except RocksDbManagedLedgerStorage.TopicReadError (List StoredMessage)
  getNextPosition : ManagedLedgerPosition →
    Except RocksDbManagedLedgerStorage.TopicReadError (Option ManagedLedgerPosition)
  isAcknowledged : MessageId → Bool
  getMessageEntryById : MessageId → Option StoredMessage

namespace ManagedLedgerStore

open RocksDbManagedLedgerStorage

/-- RocksDB opens a ledger at the first question about its topic, which the
creation of the topic has been; after that a question leaves the store as it is. -/
def reader (topic subscription : Text) : ManagedLedgerStore → SubscriptionReader
  | .memory storage => {
      firstUnackedPosition := .ok (storage.firstUnackedPosition topic subscription)
      readEntriesFrom := fun start limit => .ok (storage.readEntriesFrom topic start limit)
      getNextPosition := fun current => .ok (some (nextPositionSingleLedger current))
      isAcknowledged := storage.isAcknowledged topic subscription
      getMessageEntryById := storage.getMessageEntryById topic }
  | .rocksDb storage => {
      firstUnackedPosition :=
        (firstUnackedPosition topic subscription storage).1.mapError
          .opening
      readEntriesFrom := fun start limit =>
        (readEntriesFrom topic start limit storage).1
      getNextPosition := fun current =>
        ((topicLedger topic storage).1.map fun ledger => ledger.info.nextPosition current).mapError
          .opening
      isAcknowledged := fun messageId =>
        (isAcknowledged topic subscription messageId storage).1
      getMessageEntryById := fun messageId =>
        (getMessageEntryById topic messageId storage).1 }

def createTopic (topic : Text) : ManagedLedgerStore → ManagedLedgerStore
  | .memory storage => .memory (storage.createTopic topic)
  | .rocksDb storage => .rocksDb (RocksDbManagedLedgerStorage.createTopic topic storage).2

/-- A group of messages; the in-memory backend takes them one by one. -/
def appendMessages (topic : Text) (items : List Item) : ManagedLedgerStore → ManagedLedgerStore
  | .memory storage => .memory (items.foldl (fun storage item =>
    (storage.appendMessageWithMetadata topic item.partition item.metadata item.payload).2)
    storage)
  | .rocksDb storage =>
    .rocksDb (RocksDbManagedLedgerStorage.appendMessages .none topic items storage).2

def initializeOrOpenCursor (topic subscription : Text) (options : CursorInitOptions) :
    ManagedLedgerStore → Except String CursorOpenResult × ManagedLedgerStore
  | .memory storage =>
    let opened := storage.initializeOrOpenCursor topic subscription options
    (.ok opened.1, .memory opened.2)
  | .rocksDb storage =>
    let opened := RocksDbManagedLedgerStorage.initializeOrOpenCursor topic subscription options
      storage
    (opened.1, .rocksDb opened.2)

def ackMessage (topic subscription : Text) (messageId : MessageId) :
    ManagedLedgerStore → Except String Unit × ManagedLedgerStore
  | .memory storage => (.ok (), .memory (storage.ackMessage topic subscription messageId))
  | .rocksDb storage =>
    let acked := RocksDbManagedLedgerStorage.ackMessage topic subscription messageId storage
    (acked.1, .rocksDb acked.2)

def ackMessageShared (topic subscription : Text) (messageId : MessageId) :
    ManagedLedgerStore → Except String Unit × ManagedLedgerStore
  | .memory storage => (.ok (), .memory (storage.ackMessageShared topic subscription messageId))
  | .rocksDb storage =>
    let acked := RocksDbManagedLedgerStorage.ackMessageShared topic subscription messageId storage
    (acked.1, .rocksDb acked.2)

def seekCursor (topic subscription : Text) (messageId : MessageId) (shared : Bool) :
    ManagedLedgerStore → Except String Unit × ManagedLedgerStore
  | .memory storage => (.ok (), .memory (storage.seekCursor topic subscription messageId shared))
  | .rocksDb storage =>
    let sought := RocksDbManagedLedgerStorage.seekCursor topic subscription messageId storage
    (sought.1, .rocksDb sought.2)

end ManagedLedgerStore

def MessageId.slot (messageId : MessageId) : Nat ×ₗ Nat := messageId.toPosition.slot

structure SubscriptionView where
  partition : Int
  messages : List StoredMessage
  acked : Nat ×ₗ Nat → Prop
  frontier : Nat ×ₗ Nat

namespace SubscriptionView

variable {left right : StoredMessage}

def AckedBelow (view : SubscriptionView) (slot : Nat ×ₗ Nat) : Prop :=
  ∀ message ∈ view.messages, message.messageId.slot < slot → view.acked message.messageId.slot

/-- A position that reading can go on from: it is in the ledger of a message, no later
message will be before it, and its entry id has a successor. -/
structure Readable (view : SubscriptionView) (position : ManagedLedgerPosition) : Prop where
  known : ∃ message ∈ view.messages, message.messageId.ledger = position.ledgerId
  reached : position.slot ≤ view.frontier
  word : position.entryId + 1 < u64Modulus
  partition : position.partition = view.partition ∨ position.partition = -1

/-- The messages of the view are in order, and all of one partition. -/
structure Lined (view : SubscriptionView) : Prop where
  increasing : view.messages.Pairwise fun left right => left.messageId.slot < right.messageId.slot
  below : ∀ message ∈ view.messages, message.messageId.slot < view.frontier
  partitions : ∀ message ∈ view.messages, message.messageId.partition = view.partition

variable {view : SubscriptionView} (lined : view.Lined)
include lined

theorem Lined.id_of_slot (leftMember : left ∈ view.messages) (rightMember : right ∈ view.messages)
    (same : left.messageId.slot = right.messageId.slot) : left = right := by
  have distinct : (view.messages.map fun message => message.messageId.slot).Nodup := by
    rw [List.nodup_iff_pairwise_ne, List.pairwise_map]
    exact lined.increasing.imp fun before => before.ne
  exact List.inj_on_of_nodup_map distinct leftMember rightMember same

theorem Lined.id_lt (leftMember : left ∈ view.messages) (rightMember : right ∈ view.messages) :
    left.messageId < right.messageId ↔ left.messageId.slot < right.messageId.slot := by
  apply ManagedLedgerPosition.lt_iff_slot_lt
  exact (lined.partitions left leftMember).trans (lined.partitions right rightMember).symm

end SubscriptionView

/-- The answers of a reader, in terms of a view. -/
structure Presents (reader : SubscriptionReader) (view : SubscriptionView) : Prop where
  lined : view.Lined
  firstUnacked : ∃ answer, reader.firstUnackedPosition = .ok answer ∧
    ∀ position, answer = some position → view.Readable position ∧ view.AckedBelow position.slot ∧
      ∃ message ∈ view.messages, message.messageId.slot = position.slot ∧
        ¬ view.acked position.slot
  exhausted : -1 ≤ view.partition → reader.firstUnackedPosition = .ok none →
    ∀ message ∈ view.messages, view.acked message.messageId.slot
  read : ∀ start, view.Readable start → reader.readEntriesFrom start 1 = .ok [] ∨
    ∃ message ∈ view.messages, reader.readEntriesFrom start 1 = .ok [message] ∧
      start.slot ≤ message.messageId.slot ∧ ∀ other ∈ view.messages,
        start.slot ≤ other.messageId.slot → message.messageId.slot ≤ other.messageId.slot
  complete : -1 ≤ view.partition → ∀ start, view.Readable start →
    reader.readEntriesFrom start 1 = .ok [] →
    ∀ message ∈ view.messages, message.messageId.slot < start.slot
  next : ∀ message ∈ view.messages, ∃ answer,
    reader.getNextPosition message.messageId.toPosition = .ok answer ∧
    ∀ position, answer = some position → view.Readable position ∧
      message.messageId.slot < position.slot ∧ ∀ other ∈ view.messages,
        message.messageId.slot < other.messageId.slot → position.slot ≤ other.messageId.slot
  logicalNext : ∀ message ∈ view.messages,
    view.Readable (nextPositionSingleLedger message.messageId.toPosition) ∧
    message.messageId.slot < (nextPositionSingleLedger message.messageId.toPosition).slot
  acknowledged : ∀ messageId, reader.isAcknowledged messageId = true ↔ view.acked messageId.slot
  entry : ∀ messageId message, reader.getMessageEntryById messageId = some message ↔
    message ∈ view.messages ∧ message.messageId = messageId

end PulsarLite.Storage
