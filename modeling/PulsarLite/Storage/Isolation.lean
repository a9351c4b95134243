import PulsarLite.Storage.MemoryStore
import PulsarLite.Storage.RocksDbIsolation

/-!
# Isolation of topics and subscriptions

The in-memory backend joins topic and subscription with a colon to the key of a
cursor, and has a ledger for each topic. So two pairs are isolated there if and
only if they have different cursor keys. Together with the RocksDB backend, this
says which names a broker keeps apart.
-/

namespace PulsarLite.Storage

open Library RocksDbManagedLedgerStorage InMemoryManagedLedgerFactory InMemoryManagedLedgerStorage
  Keys List Function

variable {key other otherSubscription : Text}

namespace InMemoryManagedLedgerStorage

variable {storage after left right : InMemoryManagedLedgerStorage} {topic subscription : Text}
  {message : MessageId × Bytes}

/-- Two storages agree on a topic and a cursor. -/
structure Agree (topic key : Text) (left right : InMemoryManagedLedgerStorage) : Prop where
  ledgers : left.factory.ledgers topic = right.factory.ledgers topic
  cursors : left.cursors key = right.cursors key
  subscriptionCursors : left.subscriptionCursors key = right.subscriptionCursors key
  metadata : ∀ ledger, right.factory.ledgers topic = some ledger → ∀ message ∈ ledger.entries,
    left.entryMetadata message.1 = right.entryMetadata message.1

theorem Agree.messages (agree : Agree topic key left right) :
    left.messages topic = right.messages topic := by
  unfold InMemoryManagedLedgerStorage.messages InMemoryManagedLedgerFactory.messages
  rw [agree.ledgers]

theorem Agree.stored (agree : Agree topic key left right)
    (member : message ∈ right.messages topic) :
    left.storedMessage message = right.storedMessage message := by
  unfold InMemoryManagedLedgerStorage.messages InMemoryManagedLedgerFactory.messages at member
  cases found : right.factory.ledgers topic with
  | none =>
    rw [found] at member
    cases member
  | some ledger =>
    rw [found] at member
    unfold storedMessage
    rw [agree.metadata ledger found message member]

theorem read_from_messages_subset (start limit) (messages out : List (MessageId × Bytes)) :
    ∀ message ∈ readFromMessages start limit messages out, message ∈ messages ∨ message ∈ out := by
  induction messages generalizing out with
  | nil => exact fun message member => .inr member
  | cons first messages ih =>
    intro message member
    unfold readFromMessages at member
    split_ifs at member
    · obtain old | new := mem_append.mp member
      · exact .inr old
      · exact .inl (mem_singleton.mp new ▸ mem_cons_self)
    · obtain later | early := ih _ message member
      · exact .inl (mem_cons_of_mem _ later)
      · obtain old | new := mem_append.mp early
        · exact .inr old
        · exact .inl (mem_singleton.mp new ▸ mem_cons_self)
    · obtain later | early := ih _ message member
      · exact .inl (mem_cons_of_mem _ later)
      · exact .inr early

theorem get_message_by_id_mem {messageId : MessageId}
    (found : storage.factory.getMessageById topic messageId = some message) :
    message ∈ storage.messages topic := by
  unfold messages
  unfold getMessageById at found
  cases listed : storage.factory.messages topic with
  | none =>
    rw [listed] at found
    cases found
  | some messages =>
    simp only [listed] at found
    cases indexed : messages[messageId.entry]? with
    | none =>
      simp only [indexed] at found
      exact mem_of_find?_eq_some found
    | some candidate =>
      simp only [indexed] at found
      split_ifs at found
      · cases found
        exact mem_of_getElem? indexed
      · exact mem_of_find?_eq_some found

theorem Agree.ask_eq (agree : Agree topic (cursorSubscriptionKey topic subscription) left right)
    (query : Query) : ask topic subscription left query = ask topic subscription right query := by
  have acknowledged : left.isAcknowledged topic subscription =
      right.isAcknowledged topic subscription := by
    funext messageId
    simp only [isAcknowledged, agree.cursors, agree.subscriptionCursors]
  cases query with
  | readEntriesFrom start limit =>
    simp only [ask, readEntriesFrom, agree.messages, Answer.entries.injEq]
    apply map_congr_left
    intro message member
    obtain inside | impossible := read_from_messages_subset start limit _ _ message member
    · exact agree.stored inside
    · cases impossible
  | getMessageEntryById messageId =>
    have same : left.factory.getMessageById topic messageId =
        right.factory.getMessageById topic messageId := by
      unfold InMemoryManagedLedgerFactory.getMessageById InMemoryManagedLedgerFactory.messages
      rw [agree.ledgers]
    simp only [ask, getMessageEntryById, same]
    cases found : right.factory.getMessageById topic messageId with
    | none => rfl
    | some message =>
      simp only [Option.map_some]
      rw [agree.stored (get_message_by_id_mem found)]
  | isAcknowledged messageId => simp only [ask, acknowledged]
  | isAcknowledgedShared messageId =>
    simp only [ask, isAcknowledgedShared, agree.subscriptionCursors]
  | firstUnackedPosition => simp only [ask, firstUnackedPosition, acknowledged, agree.messages]
  | backlogEntries =>
    simp only [ask, backlogEntries, agree.messages, agree.subscriptionCursors, agree.cursors]

/-- An operation that works on the cursors under one key. -/
structure OnlyCursor (key : Text) (storage after : InMemoryManagedLedgerStorage) : Prop where
  factory : after.factory = storage.factory
  entryMetadata : after.entryMetadata = storage.entryMetadata
  cursors : ∀ other, other ≠ key → after.cursors other = storage.cursors other
  subscriptionCursors : ∀ other, other ≠ key →
    after.subscriptionCursors other = storage.subscriptionCursors other

theorem OnlyCursor.refl (key storage) : OnlyCursor key storage storage where
  factory := rfl
  entryMetadata := rfl
  cursors _ _ := rfl
  subscriptionCursors _ _ := rfl

theorem only_cursor_insert (storage key mark) :
    OnlyCursor key storage (storage.insertCursor key mark) where
  factory := rfl
  entryMetadata := rfl
  cursors _ different := update_of_ne different _ _
  subscriptionCursors _ _ := rfl

theorem only_cursor_ensure (storage key) :
    OnlyCursor key storage (storage.ensureExclusiveCursor key) := by
  unfold ensureExclusiveCursor
  cases storage.cursors key with
  | some mark => exact .refl key storage
  | none => exact only_cursor_insert storage key u64Max

theorem only_cursor_create (storage topic subscription options) :
    OnlyCursor (cursorSubscriptionKey topic subscription) storage
      (storage.createCursor topic subscription options) := by
  unfold createCursor
  cases options.startMessageId with
  | some start =>
    simp only [applyStartMessageIdExclusive]
    split_ifs
    · exact only_cursor_insert storage _ _
    · exact only_cursor_ensure storage _
  | none =>
    cases options.initialPosition with
    | latest =>
      simp only [applyLatestExclusive]
      cases lastPositionFromMessages (storage.messages topic) with
      | some last => exact only_cursor_insert storage _ _
      | none => exact only_cursor_ensure storage _
    | earliest => exact only_cursor_ensure storage _

theorem perform_only_cursor {operation : Operation} (notTopic : ¬ operation.OnTopic)
    (topic subscription : Text) (storage) :
    OnlyCursor (cursorSubscriptionKey topic subscription) storage
      (perform topic subscription storage operation) := by
  cases operation with
  | createTopic | append => exact absurd trivial notTopic
  | initializeOrOpenCursor options =>
    unfold perform initializeOrOpenCursor
    split_ifs
    · exact .refl _ storage
    · exact only_cursor_create storage topic subscription options
  | ackMessage messageId => exact only_cursor_insert storage _ _
  | ackMessageShared messageId =>
    exact {
      factory := rfl
      entryMetadata := rfl
      cursors _ _ := rfl
      subscriptionCursors _ different := update_of_ne different _ _ }
  | seekCursor messageId shared =>
    cases shared with
    | true | false => exact {
        factory := rfl
        entryMetadata := rfl
        cursors _ different := update_of_ne different _ _
        subscriptionCursors _ different := update_of_ne different _ _ }
  | deleteCursor =>
    exact {
      factory := rfl
      entryMetadata := rfl
      cursors _ different := update_of_ne different _ _
      subscriptionCursors _ different := update_of_ne different _ _ }

theorem reachable_housed (reachable : Reachable storage) : Housed storage := by
  induction reachable with
  | created => exact housed_new
  | performed topic subscription storage operation before ih =>
    by_cases onTopic : operation.OnTopic
    · cases operation with
      | createTopic => exact (ih.ensure_ledger topic).1
      | append partition metadata payload => exact ih.append topic partition metadata payload
      | initializeOrOpenCursor | ackMessage | ackMessageShared | seekCursor | deleteCursor =>
        exact absurd onTopic id
    · exact ih.of_factory (perform_only_cursor onTopic topic subscription storage).factory

theorem OnlyCursor.agree (only : OnlyCursor key storage after) (different : other ≠ key)
    (topic : Text) :
    Agree topic other after storage where
  ledgers := by rw [only.factory]
  cursors := only.cursors other different
  subscriptionCursors := only.subscriptionCursors other different
  metadata _ _ message _ := congrFun only.entryMetadata message.1

theorem create_topic_agree (different : other ≠ topic) (storage) (key : Text) :
    Agree other key (storage.createTopic topic) storage where
  ledgers := by
    unfold createTopic ensureLedger
    cases storage.factory.ledgers topic with
    | some ledger => rfl
    | none => exact update_of_ne different _ _
  cursors := rfl
  subscriptionCursors := rfl
  metadata _ _ _ _ := rfl

theorem append_agree (housed : Housed storage) (different : other ≠ topic)
    (partition metadata payload key) :
    Agree other key (storage.appendMessageWithMetadata topic partition metadata payload).2
      storage where
  ledgers := by
    have created := create_topic_agree different storage key
    exact (update_of_ne different _ _).trans created.ledgers
  cursors := rfl
  subscriptionCursors := rfl
  metadata ledger found message member := by
    obtain ⟨ensured, cached⟩ := housed.ensure_ledger topic
    have kept := (create_topic_agree different storage key).ledgers
    have ids : message.1.ledger ≠ (storage.factory.ensureLedger topic).1.ledgerId := by
      rw [housed.entries other ledger found message member]
      intro same
      exact different (ensured.apart other topic ledger _ (kept.trans found) cached same)
    have fresh : message.1 ≠ (storage.factory.appendEntry topic partition payload).1 := by
      intro same
      exact ids (congrArg MessageId.ledger same)
    simp only [appendMessageWithMetadata]
    split_ifs
    · rfl
    · exact update_of_ne fresh _ _

def Isolated (topic subscription other otherSubscription : Text) : Prop :=
  ∀ storage, Reachable storage → ∀ operation : Operation,
    (operation.OnTopic → topic ≠ other) → ∀ query : Query,
      ask other otherSubscription (perform topic subscription storage operation) query =
        ask other otherSubscription storage query

theorem isolated_of_keys
    (keys : cursorSubscriptionKey topic subscription ≠ cursorSubscriptionKey other
      otherSubscription) :
    Isolated topic subscription other otherSubscription := by
  intro storage reachable operation onTopic query
  have housed := reachable_housed reachable
  apply Agree.ask_eq
  by_cases topics : operation.OnTopic
  · have different := (onTopic topics).symm
    cases operation with
    | createTopic => exact create_topic_agree different storage _
    | append partition metadata payload =>
      exact append_agree housed different partition metadata payload _
    | initializeOrOpenCursor | ackMessage | ackMessageShared | seekCursor | deleteCursor =>
      exact absurd topics id
  · exact (perform_only_cursor topics topic subscription storage).agree keys.symm other

theorem not_isolated_of_keys
    (same : cursorSubscriptionKey topic subscription = cursorSubscriptionKey other
      otherSubscription) :
    ¬ Isolated topic subscription other otherSubscription := by
  intro isolated
  have kept := isolated new .created
    (.ackMessage { ledger := 0, entry := 0, partition := 0 }) (fun impossible => impossible.elim)
    (.isAcknowledged { ledger := 0, entry := 0, partition := 0 })
  have before : new.isAcknowledged other otherSubscription
      { ledger := 0, entry := 0, partition := 0 } = false := by
    simp [isAcknowledged, new]
  have acked : (new.ackMessage topic subscription
      { ledger := 0, entry := 0, partition := 0 }).isAcknowledged other otherSubscription
      { ledger := 0, entry := 0, partition := 0 } = true := by
    simp [isAcknowledged, ackMessage, insertCursor, same, new, u64Max, u64Modulus]
  simp only [ask, perform, before, acked] at kept
  cases kept

theorem isolated_iff (topic subscription other otherSubscription : Text) :
    Isolated topic subscription other otherSubscription ↔
      cursorSubscriptionKey topic subscription ≠
        cursorSubscriptionKey other otherSubscription := by
  constructor
  · exact fun isolated same => not_isolated_of_keys same isolated
  · exact isolated_of_keys

end InMemoryManagedLedgerStorage

/-- The keys that no two owners can share, whatever their names. -/
structure EntryKeysApart (topic subscription : Text) : Prop where
  entries : ∀ ledgerId entryId otherLedger otherEntry,
    managedEntryKey ledgerId entryId = managedEntryKey otherLedger otherEntry →
      ledgerId = otherLedger ∧ entryId = otherEntry
  entryLedger : ∀ ledgerId entryId, managedEntryKey ledgerId entryId ≠
    ledgerKey topic
  entryCursor : ∀ ledgerId entryId, managedEntryKey ledgerId entryId ≠
    cursorKey topic subscription
  allocatorEntry : ∀ ledgerId entryId,
    ledgerIdAllocatorKey ≠ managedEntryKey ledgerId entryId
  allocatorLedger : ledgerIdAllocatorKey ≠ ledgerKey topic
  allocatorCursor : ledgerIdAllocatorKey ≠
    cursorKey topic subscription

theorem entry_keys_apart (topic subscription : Text) : EntryKeysApart topic subscription where
  entries _ _ _ _ same := managed_entry_key_inj same
  entryLedger _ _ := (ledger_key_ne_entry_key _ _ _).symm
  entryCursor _ _ := (cursor_key_ne_entry_key _ _ _ _).symm
  allocatorEntry _ _ := (entry_key_ne_allocator_key _ _).symm
  allocatorLedger := (ledger_key_ne_allocator_key _).symm
  allocatorCursor := (cursor_key_ne_allocator_key _ _).symm

/-- Two different pairs are isolated from each other in the RocksDB backend if
and only if their ledger and cursor keys are distinct, and in the in-memory
backend if and only if their cursor keys are. Entry keys and the allocator key
are never shared. -/
theorem storage_is_isolated_iff (topic subscription other otherSubscription : Text)
    (different : (topic, subscription) ≠ (other, otherSubscription)) :
    (RocksDbManagedLedgerStorage.Isolated topic subscription other otherSubscription ↔
      RocksDbManagedLedgerStorage.KeysApart topic subscription other otherSubscription) ∧
    (InMemoryManagedLedgerStorage.Isolated topic subscription other otherSubscription ↔
      cursorSubscriptionKey topic subscription ≠
        cursorSubscriptionKey other otherSubscription) ∧
    EntryKeysApart topic subscription := by
  refine ⟨?_, ?_, ?_⟩
  · exact isolated_iff different
  · exact isolated_iff topic subscription other otherSubscription
  · exact entry_keys_apart topic subscription

def urlTopic : Text := "persistent://t/n/x".toList

def plainTopic : Text := "t/n/persistent/x".toList

/-- Two topics with one ledger, a cursor under the key of a ledger, and two pairs
with one in-memory cursor. -/
theorem isolation_fails :
    ¬ RocksDbManagedLedgerStorage.Isolated urlTopic ['s'] plainTopic ['s'] ∧
    ¬ RocksDbManagedLedgerStorage.Isolated urlTopic ['s'] "t/n/persistent/x/s".toList ['r'] ∧
    ¬ InMemoryManagedLedgerStorage.Isolated ['a'] ['b', ':', 'c'] ['a', ':', 'b'] ['c'] := by
  refine ⟨?_, ?_, ?_⟩
  · exact not_isolated_of_ledgers (by decide) (by decide)
  · exact not_isolated_of_cursor (by decide) (by decide)
  · exact not_isolated_of_keys (by decide)

/-- Two topics of one namespace, with a subscription of the same name. -/
theorem storage_is_isolated_iff_namesakes :
    RocksDbManagedLedgerStorage.Isolated urlTopic ['s'] "persistent://t/n/y".toList ['s'] ∧
      InMemoryManagedLedgerStorage.Isolated urlTopic ['s'] "persistent://t/n/y".toList ['s'] := by
  have both := storage_is_isolated_iff urlTopic ['s'] "persistent://t/n/y".toList ['s'] (by decide)
  refine ⟨both.1.mpr ?_, both.2.1.mpr (by decide)⟩
  exact {
    ledgers _ := by decide
    cursors := by decide
    cursorLedger := by decide
    ledgerCursor := by decide }

end PulsarLite.Storage
