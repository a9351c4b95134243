import PulsarLite.Storage.MemoryView
import PulsarLite.Storage.RocksDbView

/-!
# A store that serves a subscription

Both backends at once: what a dispatcher may rely on while messages are appended
and stored ones acknowledged, from the moment the subscription is opened. Whether
acknowledgements are ever taken back depends on what the cursor remembers.
-/

namespace PulsarLite.Storage

open InMemoryManagedLedgerStorage List InMemoryManagedLedgerFactory Except
open RocksDbManagedLedgerStorage (readied_created stores_word)

namespace SubscriptionView

variable {first second third : SubscriptionView}

/-- Messages are added at the end; nothing else changes. -/
structure Grows (before after : SubscriptionView) : Prop where
  partition : after.partition = before.partition
  acked : after.acked = before.acked
  frontier : before.frontier ≤ after.frontier
  messages : ∃ more, after.messages = before.messages ++ more ∧
    ∀ message ∈ more, before.frontier ≤ message.messageId.slot

theorem Grows.refl (view) : Grows view view where
  partition := rfl
  acked := rfl
  frontier := le_refl _
  messages := ⟨[], by simp⟩

theorem Grows.trans (left : Grows first second) (right : Grows second third) :
    Grows first third where
  partition := right.partition.trans left.partition
  acked := right.acked.trans left.acked
  frontier := left.frontier.trans right.frontier
  messages := by
    obtain ⟨more, leftMessages, leftAbove⟩ := left.messages
    obtain ⟨later, rightMessages, rightAbove⟩ := right.messages
    refine ⟨more ++ later, by rw [rightMessages, leftMessages, append_assoc], ?_⟩
    intro message member
    obtain early | late := mem_append.mp member
    · exact leftAbove message early
    · exact left.frontier.trans (rightAbove message late)

/-- The same messages, with other ones acknowledged. -/
structure Reacked (before after : SubscriptionView) : Prop where
  partition : after.partition = before.partition
  frontier : after.frontier = before.frontier
  messages : after.messages = before.messages

theorem Reacked.trans (left : Reacked first second)
    (right : Reacked second third) : Reacked first third where
  partition := right.partition.trans left.partition
  frontier := right.frontier.trans left.frontier
  messages := right.messages.trans left.messages

end SubscriptionView

namespace ManagedLedgerStore

open RocksDbManagedLedgerStorage (Readied cursorState)

inductive Serves (topic subscription : Text) (partition : Int) :
    ManagedLedgerStore → SubscriptionView → Prop
  | memory (storage ledger) (numbered : Numbered topic subscription partition storage ledger) :
      Serves topic subscription partition (.memory storage)
        (viewOf topic subscription partition storage ledger)
  | rocksDb (storage ledger log state)
      (readied : Readied topic subscription partition storage ledger log state) :
      Serves topic subscription partition (.rocksDb storage)
        (RocksDbManagedLedgerStorage.viewOf partition ledger log state)

/-- The counters of the topic are within their machine types. -/
def Fits (topic : Text) : ManagedLedgerStore → Prop
  | .memory storage => ∀ ledger ∈ storage.factory.ledgers topic,
      ledger.entries.length + 1 < u64Modulus
  | .rocksDb storage => RocksDbManagedLedgerStorage.Fits topic storage

/-- An individual acknowledgement is sure to be kept. -/
def Orderly (topic subscription : Text) : ManagedLedgerStore → Prop
  | .memory _ => True
  | .rocksDb storage => ∀ state, cursorState topic subscription storage = .ok state →
      state.StopsAbove

/-- An individual acknowledgement takes no other one back. -/
def Remembers (topic subscription : Text) : ManagedLedgerStore → Prop
  | .memory storage => InMemoryManagedLedgerStorage.Remembers topic subscription storage
  | .rocksDb storage => ∀ state, cursorState topic subscription storage = .ok state →
      state.StopsAbove

variable {topic subscription : Text} {partition : Int} {store : ManagedLedgerStore}
  {view : SubscriptionView}

section

variable (serves : Serves topic subscription partition store view)
include serves

theorem Serves.presents : Presents (store.reader topic subscription) view := by
  cases serves with
  | memory storage ledger numbered => exact numbered.presents
  | rocksDb storage ledger log state readied => exact readied.presents

theorem Serves.partition_eq : view.partition = partition := by
  cases serves with
  | memory | rocksDb => rfl

end

theorem append_each_length (items : List Item) (storage : InMemoryManagedLedgerStorage) {ledger}
    (found : storage.factory.ledgers topic = some ledger) :
    ∃ next, (items.foldl (fun storage item => (storage.appendMessageWithMetadata topic
        item.partition item.metadata item.payload).2) storage).factory.ledgers topic = some next ∧
      next.entries.length = ledger.entries.length + items.length := by
  induction items generalizing storage ledger with
  | nil => exact ⟨ledger, found, rfl⟩
  | cons item items ih =>
    have appended : (storage.appendMessageWithMetadata topic item.partition item.metadata
        item.payload).2.factory.ledgers topic =
          some (ledger.addEntryInPlace item.partition item.payload).2 := by
      simp [appendMessageWithMetadata, appendEntry, ensureLedger, found]
    obtain ⟨next, nextFound, length⟩ := ih _ appended
    refine ⟨next, nextFound, ?_⟩
    rw [length, length_cons]
    simp only [InMemoryManagedLedger.addEntryInPlace, length_append, length_singleton]
    omega

open InMemoryManagedLedgerStorage in
theorem append_each (items : List Item) (storage ledger)
    (numbered : Numbered topic subscription partition storage ledger)
    (partitions : ∀ item ∈ items, item.partition = partition)
    (fits : ledger.entries.length + items.length + 1 < u64Modulus) :
    ∃ next, Numbered topic subscription partition (items.foldl (fun storage item =>
        (storage.appendMessageWithMetadata topic item.partition item.metadata item.payload).2)
        storage) next ∧
      next.entries.length = ledger.entries.length + items.length ∧
      (viewOf topic subscription partition storage ledger).Grows
        (viewOf topic subscription partition (items.foldl (fun storage item =>
          (storage.appendMessageWithMetadata topic item.partition item.metadata item.payload).2)
          storage) next) := by
  induction items generalizing storage ledger with
  | nil => exact ⟨ledger, numbered, rfl, .refl _⟩
  | cons item items ih =>
    rw [length_cons] at fits
    have isPartition := partitions item mem_cons_self
    obtain ⟨next, kept, length, message, messages, slot, sameId⟩ :=
      numbered.append item.metadata item.payload (by omega)
    rw [foldl_cons, isPartition]
    have grows : (viewOf topic subscription partition storage ledger).Grows
        (viewOf topic subscription partition (storage.appendMessageWithMetadata topic partition
          item.metadata item.payload).2 next) := by
      constructor
      · rfl
      · rfl
      · simp only [viewOf, length, sameId]
        rw [Prod.Lex.toLex_le_toLex]
        exact .inr ⟨rfl, Nat.le_succ _⟩
      · refine ⟨[message], messages, ?_⟩
        intro other isMessage
        rw [mem_singleton.mp isMessage, slot]
        exact le_refl _
    obtain ⟨last, lastKept, lastLength, lastGrows⟩ := ih _ next kept
      (fun other member => partitions other (mem_cons_of_mem _ member))
      (by rw [length]; omega)
    refine ⟨last, lastKept, ?_, grows.trans lastGrows⟩
    rw [lastLength, length, length_cons]
    omega

structure Publishable (partition : Int) (items : List Item) : Prop where
  framed : ∀ item ∈ items, item.Framed
  partitions : ∀ item ∈ items, item.partition = partition

theorem Publishable.one {partition : Int} {item : Item} (framed : item.Framed)
    (same : item.partition = partition) : Publishable partition [item] where
  framed := by simpa using framed
  partitions := by simpa using same

section

variable (serves : Serves topic subscription partition store view) {message : StoredMessage}
include serves

theorem Serves.append {items : List Item} (publishable : Publishable partition items)
    (fits : Fits topic (store.appendMessages topic items)) :
    ∃ after, Serves topic subscription partition (store.appendMessages topic items) after ∧
      view.Grows after ∧
      (Orderly topic subscription store →
        Orderly topic subscription (store.appendMessages topic items)) ∧
      (Remembers topic subscription store →
        Remembers topic subscription (store.appendMessages topic items)) := by
  cases serves with
  | memory storage ledger numbered =>
    obtain ⟨last, found, length⟩ := append_each_length items storage numbered.found
    have small := fits last found
    obtain ⟨next, kept, _, grows⟩ := append_each items storage ledger numbered
      publishable.partitions (by omega)
    refine ⟨_, Serves.memory _ next kept, grows, fun _ => trivial, ?_⟩
    have cursors : ∀ (items : List Item) (storage : InMemoryManagedLedgerStorage),
        (items.foldl (fun storage item => (storage.appendMessageWithMetadata topic item.partition
          item.metadata item.payload).2) storage).cursors = storage.cursors ∧
        (items.foldl (fun storage item => (storage.appendMessageWithMetadata topic item.partition
          item.metadata item.payload).2) storage).subscriptionCursors =
          storage.subscriptionCursors := by
      intro items
      induction items with
      | nil => exact fun _ => ⟨rfl, rfl⟩
      | cons item items ih => exact fun storage => ih _
    intro remembers
    unfold Remembers appendMessages InMemoryManagedLedgerStorage.Remembers
    simp only [(cursors items storage).1, (cursors items storage).2]
    exact remembers
  | rocksDb storage ledger log state readied =>
    obtain ⟨next, kept, grown, above⟩ :=
      readied.append publishable.framed publishable.partitions fits
    generalize RocksDbManagedLedgerStorage.returned
      (RocksDbManagedLedgerStorage.appendMessages .none topic items storage).1 items = more
      at kept above
    have grows : (RocksDbManagedLedgerStorage.viewOf partition ledger log state).Grows
        (RocksDbManagedLedgerStorage.viewOf partition next (log ++ more) state) := by
      refine ⟨rfl, rfl, grown.advances, more.map RocksDBManagedLedger.messageOf,
        map_append, ?_⟩
      intro message member
      obtain ⟨entry, inMore, rfl⟩ := mem_map.mp member
      exact above entry inMore
    have cursor : cursorState topic subscription
        (RocksDbManagedLedgerStorage.appendMessages .none topic items storage).2 =
          cursorState topic subscription storage :=
      kept.tracked.found.trans readied.tracked.found.symm
    refine ⟨_, Serves.rocksDb _ next _ state kept, grows, ?_, ?_⟩
    all_goals
      intro orderly other found
      exact orderly other (cursor.symm.trans found)

theorem Serves.stores (member : message ∈ view.messages) :
    message.messageId.entry + 1 < u64Modulus := by
  cases serves with
  | memory storage ledger numbered =>
    obtain ⟨entry, inLedger, rfl⟩ := mem_map.mp member
    exact (numbered.readable inLedger).word
  | rocksDb storage ledger log state readied =>
    exact stores_word readied.tracked.encodable (readied.stores_of_message member)

theorem Serves.ack_message_shared (member : message ∈ view.messages) :
    ∃ after, Serves topic subscription partition
        (store.ackMessageShared topic subscription message.messageId).2 after ∧
      view.Reacked after ∧
      (store.ackMessageShared topic subscription message.messageId).1 = .ok () ∧
      (Orderly topic subscription store →
        Orderly topic subscription (store.ackMessageShared topic subscription message.messageId).2 ∧
        Remembers topic subscription
          (store.ackMessageShared topic subscription message.messageId).2 ∧
        after.acked message.messageId.slot) ∧
      (Remembers topic subscription store →
        ∀ other ∈ view.messages, view.acked other.messageId.slot →
          after.acked other.messageId.slot) := by
  have word := serves.stores member
  cases serves with
  | memory storage ledger numbered =>
    obtain ⟨kept, remembers, acked, monotone⟩ := numbered.ack_message_shared word
    refine ⟨_, .memory _ ledger kept, ⟨rfl, rfl, rfl⟩, rfl,
      fun _ => ⟨trivial, remembers, acked⟩, ?_⟩
    intro remembered other _ before
    exact monotone remembered other.messageId before
  | rocksDb storage ledger log state readied =>
    obtain ⟨next, kept, result, spec⟩ :=
      readied.ack_message_shared (readied.stores_of_message member)
    have found := readied.tracked.found
    have after other : cursorState topic subscription
        (RocksDbManagedLedgerStorage.ackMessageShared topic subscription message.messageId
          storage).2 = .ok other → other = next := by
      intro isOther
      rw [kept.tracked.found] at isOther
      exact (ok.inj isOther).symm
    refine ⟨_, .rocksDb _ ledger log next kept, ⟨rfl, rfl, rfl⟩, result, ?_, ?_⟩
    · intro orderly
      obtain ⟨stops, acked, _⟩ := spec (orderly state found)
      have kept other : cursorState topic subscription
          (RocksDbManagedLedgerStorage.ackMessageShared topic subscription message.messageId
            storage).2 = .ok other → other.StopsAbove :=
        fun isOther => after other isOther ▸ stops
      exact ⟨kept, kept, acked⟩
    · intro remembers other otherMember before
      obtain ⟨_, _, monotone⟩ := spec (remembers state found)
      exact monotone _ (readied.stores_of_message otherMember) before

end

/-- A store that has never had the topic, nor a cursor under the name of the
subscription. -/
def Fresh (topic subscription : Text) : ManagedLedgerStore → Prop
  | .memory storage => storage.factory.ledgers topic = none ∧
      storage.cursors (cursorSubscriptionKey topic subscription) = none ∧
      storage.subscriptionCursors (cursorSubscriptionKey topic subscription) = none
  | .rocksDb storage => storage.ledgers (Keys.managedLedgerName topic) = none ∧
      storage.db (Keys.managedLedgerKey (Keys.managedLedgerName topic)) = none ∧
      storage.db (RocksDbManagedLedgerStorage.cursorKey topic subscription) = none ∧
      EntryLogStore.Aligned storage.entryLog ∧
      ∃ ledger, (RocksDbManagedLedgerStorage.topicLedger topic storage).1 = .ok ledger

/-- A topic is created and messages are published, before the subscription is opened. -/
inductive Prepared (topic subscription : Text) (partition : Int) : ManagedLedgerStore → Prop
  | created (base) (fresh : Fresh topic subscription base)
      (fits : Fits topic (base.createTopic topic)) :
      Prepared topic subscription partition (base.createTopic topic)
  | appended (items store) (before : Prepared topic subscription partition store)
      (publishable : Publishable partition items)
      (fits : Fits topic (store.appendMessages topic items)) :
      Prepared topic subscription partition (store.appendMessages topic items)

theorem Prepared.serves {store} (prepared : Prepared topic subscription partition store) :
    ∃ view, Serves topic subscription partition store view ∧ Orderly topic subscription store := by
  induction prepared with
  | created base fresh fits =>
    cases base with
    | memory storage =>
      obtain ⟨missing, _, noShared⟩ := fresh
      exact ⟨_, .memory _ _ (numbered_created missing noShared partition), trivial⟩
    | rocksDb storage =>
      obtain ⟨notCached, missing, noCursor, aligned, ledger, opened⟩ := fresh
      have readied := readied_created notCached missing noCursor
        aligned (Prod.ext opened rfl) fits partition
      refine ⟨_, .rocksDb _ ledger _ _ readied, ?_⟩
      intro state found
      have same := readied.tracked.found.symm.trans found
      rw [← ok.inj same]
      intro mark isMark
      cases isMark
  | appended items store before publishable fits ih =>
    obtain ⟨view, serves, orderly⟩ := ih
    obtain ⟨after, served, _, kept, _⟩ := serves.append publishable fits
    exact ⟨after, served, kept orderly⟩

theorem Serves.open_cursor (serves : Serves topic subscription partition store view)
    (orderly : Orderly topic subscription store) {options}
    (start : ∀ messageId, options.startMessageId = some messageId →
      ∃ message ∈ view.messages, message.messageId = messageId) :
    ∃ after, Serves topic subscription partition
        (store.initializeOrOpenCursor topic subscription options).2 after ∧
      Orderly topic subscription (store.initializeOrOpenCursor topic subscription options).2 ∧
      view.Reacked after ∧ ∃ result,
        (store.initializeOrOpenCursor topic subscription options).1 = .ok result ∧
        ((store.initializeOrOpenCursor topic subscription options).2.reader topic
          subscription).firstUnackedPosition = .ok result.firstUnacked := by
  cases serves with
  | memory storage ledger numbered =>
    refine ⟨_, Serves.memory _ ledger (numbered.open_cursor options), trivial, ⟨rfl, rfl, ?_⟩,
      _, rfl, ?_⟩
    · have metadata : (storage.initializeOrOpenCursor topic subscription
          options).2.entryMetadata = storage.entryMetadata := by
        simp only [InMemoryManagedLedgerStorage.initializeOrOpenCursor,
          InMemoryManagedLedgerStorage.createCursor,
          applyStartMessageIdExclusive,
          applyLatestExclusive,
          ensureExclusiveCursor,
          insertCursor]
        repeat' split
        all_goals rfl
      apply map_congr_left
      intro message _
      simp only [storedMessage, metadata]
    · simp only [reader, initializeOrOpenCursor,
        InMemoryManagedLedgerStorage.initializeOrOpenCursor]
      split
      · rfl
      · rfl
  | rocksDb storage ledger log state readied =>
    have stored messageId : options.startMessageId = some messageId →
        ledger.info.Stores messageId.toPosition := by
      intro chosen
      obtain ⟨message, member, rfl⟩ := start messageId chosen
      exact readied.stores_of_message member
    obtain ⟨next, result, after, opened, kept, answer, stops⟩ := readied.open_cursor stored
    have reduced : (ManagedLedgerStore.rocksDb storage).initializeOrOpenCursor topic subscription
        options = (.ok result, .rocksDb after) := by
      simp only [initializeOrOpenCursor, opened]
    rw [reduced]
    refine ⟨_, Serves.rocksDb after ledger log next kept, ?_, ⟨rfl, rfl, rfl⟩, result, rfl, ?_⟩
    · intro other found
      rw [← ok.inj (kept.tracked.found.symm.trans found)]
      exact stops (orderly state readied.tracked.found)
    · simp only [reader, answer]
      rfl

end ManagedLedgerStore

end PulsarLite.Storage
