import PulsarLite.Storage.Backend
import PulsarLite.Storage.SharedCursor

/-!
# A subscription in memory, as its dispatcher sees it

The ledger of a topic numbers its messages from zero, so its answers are those of
a view. Individual acknowledgements take none back once the subscription has a
cursor with holes; before that, a plain mark is forgotten at the first of them.
-/

namespace PulsarLite.Storage

open Library List Option ManagedLedgerStore InMemoryManagedLedgerFactory InMemoryManagedLedger

theorem first_unacked_from_messages_eq (isAcknowledged : MessageId → Bool)
    (messages : List (MessageId × Bytes)) :
    firstUnackedFromMessages isAcknowledged messages =
      (messages.find? fun message => !isAcknowledged message.1).map
        fun message => message.1.toPosition := by
  induction messages with
  | nil => rfl
  | cons message rest ih =>
    rw [firstUnackedFromMessages, ih, List.find?_cons]
    cases isAcknowledged message.1 with
    | true | false => rfl

theorem read_from_messages_one (start) (messages : List (MessageId × Bytes)) :
    readFromMessages start 1 messages [] =
      (messages.find? fun message => positionAtOrAfter message.1.toPosition start).toList := by
  induction messages with
  | nil => rfl
  | cons message rest ih =>
    rw [readFromMessages, ih, List.find?_cons]
    cases positionAtOrAfter message.1.toPosition start with
    | true | false => rfl

namespace InMemoryManagedLedgerStorage

/-- The ledger of a topic numbers its messages, and its cursor with holes, if
there is one, is sound. -/
structure Numbered (topic subscription : Text) (partition : Int)
    (storage : InMemoryManagedLedgerStorage) (ledger : InMemoryManagedLedger) : Prop where
  found : storage.factory.ledgers topic = some ledger
  ids : ∀ (index : Nat) (message : MessageId × Bytes), ledger.entries[index]? = some message →
    message.1 = { ledger := ledger.ledgerId, entry := index, partition := partition }
  sized : ledger.entries.length + 1 < u64Modulus
  cursor : ∀ shared,
    storage.subscriptionCursors (cursorSubscriptionKey topic subscription) = some shared →
    shared.Sound

def viewOf (topic subscription : Text) (partition : Int) (storage : InMemoryManagedLedgerStorage)
    (ledger : InMemoryManagedLedger) : SubscriptionView where
  partition := partition
  messages := ledger.entries.map storage.storedMessage
  acked := fun slot => storage.isAcknowledged topic subscription
    { ledger := (ofLex slot).1, entry := (ofLex slot).2, partition := -1 } = true
  frontier := toLex (ledger.ledgerId, ledger.entries.length)

/-- No plain mark would be forgotten: there is a cursor with holes, or no mark. -/
def Remembers (topic subscription : Text) (storage : InMemoryManagedLedgerStorage) : Prop :=
  (storage.subscriptionCursors (cursorSubscriptionKey topic subscription)).isSome = true ∨
    (storage.cursors (cursorSubscriptionKey topic subscription)).getD u64Max = u64Max

instance (topic subscription : Text) (storage : InMemoryManagedLedgerStorage) :
    Decidable (Remembers topic subscription storage) :=
  inferInstanceAs (Decidable (_ ∨ _))

variable {topic subscription : Text} {partition : Int} {storage : InMemoryManagedLedgerStorage}
  {ledger : InMemoryManagedLedger}

theorem is_acknowledged_slot (topic subscription partition storage ledger messageId) :
    storage.isAcknowledged topic subscription messageId = true ↔
      (viewOf topic subscription partition storage ledger).acked messageId.slot :=
  Iff.rfl

namespace Numbered

variable (numbered : Numbered topic subscription partition storage ledger)
include numbered

theorem messages_eq : storage.messages topic = ledger.entries := by
  simp [messages, InMemoryManagedLedgerFactory.messages, numbered.found]

variable {message : MessageId × Bytes}

theorem slot_of_index {index : Nat} (found : ledger.entries[index]? = some message) :
    message.1.slot = toLex (ledger.ledgerId, index) := by
  rw [numbered.ids index message found]
  rfl

theorem index_of_mem (member : message ∈ ledger.entries) :
    ∃ index, index < ledger.entries.length ∧ ledger.entries[index]? = some message ∧
      message.1 = { ledger := ledger.ledgerId, entry := index, partition := partition } := by
  obtain ⟨index, found⟩ := List.mem_iff_getElem?.mp member
  exact ⟨index, (List.getElem?_eq_some_iff.mp found).1, found, numbered.ids index message found⟩

theorem increasing : ledger.entries.Pairwise fun left right => left.1.slot < right.1.slot := by
  rw [pairwise_iff_getElem]
  intro left right leftBound rightBound before
  rw [numbered.slot_of_index (getElem?_eq_getElem leftBound),
    numbered.slot_of_index (getElem?_eq_getElem rightBound), Prod.Lex.toLex_lt_toLex]
  exact .inr ⟨rfl, before⟩

theorem lined : (viewOf topic subscription partition storage ledger).Lined where
  increasing := by
    rw [viewOf, pairwise_map]
    exact numbered.increasing
  below message member := by
    obtain ⟨entry, inLedger, rfl⟩ := mem_map.mp member
    obtain ⟨index, bound, found, _⟩ := numbered.index_of_mem inLedger
    change entry.1.slot < _
    rw [numbered.slot_of_index found, viewOf, Prod.Lex.toLex_lt_toLex]
    exact .inr ⟨rfl, bound⟩
  partitions message member := by
    obtain ⟨entry, inLedger, rfl⟩ := mem_map.mp member
    obtain ⟨index, _, _, ids⟩ := numbered.index_of_mem inLedger
    exact congrArg MessageId.partition ids

theorem readable (member : message ∈ ledger.entries) :
    (viewOf topic subscription partition storage ledger).Readable message.1.toPosition := by
  obtain ⟨index, bound, found, ids⟩ := numbered.index_of_mem member
  have sized := numbered.sized
  refine ⟨⟨_, mem_map.mpr ⟨message, member, rfl⟩, rfl⟩, ?_, ?_, ?_⟩
  all_goals rw [ids]
  · change toLex (_, _) ≤ toLex (_, _)
    rw [Prod.Lex.toLex_le_toLex]
    exact .inr ⟨rfl, bound.le⟩
  · change index + 1 < u64Modulus
    omega
  · exact .inl rfl

theorem next_position (member : message ∈ ledger.entries) :
    (viewOf topic subscription partition storage ledger).Readable
        (nextPositionSingleLedger message.1.toPosition) ∧
      message.1.slot < (nextPositionSingleLedger message.1.toPosition).slot ∧
      ∀ other ∈ ledger.entries, message.1.slot < other.1.slot →
        (nextPositionSingleLedger message.1.toPosition).slot ≤ other.1.slot := by
  obtain ⟨index, bound, found, ids⟩ := numbered.index_of_mem member
  have sized := numbered.sized
  have next : nextPositionSingleLedger message.1.toPosition = {
      ledgerId := ledger.ledgerId, entryId := index + 1, partition := partition } := by
    rw [ids]
    simp only [nextPositionSingleLedger, MessageId.toPosition]
    rw [Nat.mod_eq_of_lt (by omega)]
  rw [next, numbered.slot_of_index found]
  refine ⟨⟨⟨_, mem_map.mpr ⟨message, member, rfl⟩, congrArg MessageId.ledger ids⟩, ?_, ?_,
    .inl rfl⟩, ?_, ?_⟩
  · change toLex (_, _) ≤ toLex (_, _)
    rw [Prod.Lex.toLex_le_toLex]
    exact .inr ⟨rfl, bound⟩
  · change index + 1 + 1 < u64Modulus
    omega
  · change toLex (_, _) < toLex (_, _)
    rw [Prod.Lex.toLex_lt_toLex]
    exact .inr ⟨rfl, Nat.lt_succ_self _⟩
  intro other otherMember
  obtain ⟨otherIndex, _, otherFound, _⟩ := numbered.index_of_mem otherMember
  rw [numbered.slot_of_index otherFound]
  change toLex (_, _) < toLex (_, _) → toLex (_, _) ≤ toLex (_, _)
  rw [Prod.Lex.toLex_lt_toLex, Prod.Lex.toLex_le_toLex]
  rintro (earlier | ⟨_, beyond⟩)
  · exact absurd earlier (lt_irrefl _)
  · exact .inr ⟨rfl, beyond⟩

theorem first_unacked_some {position : ManagedLedgerPosition}
    (found : storage.firstUnackedPosition topic subscription = some position) :
    ∃ message ∈ ledger.entries, message.1.toPosition = position ∧
      storage.isAcknowledged topic subscription message.1 = false ∧
      ∀ other ∈ ledger.entries, other.1.slot < message.1.slot →
        storage.isAcknowledged topic subscription other.1 = true := by
  rw [firstUnackedPosition, numbered.messages_eq, first_unacked_from_messages_eq] at found
  obtain ⟨message, search, same⟩ := map_eq_some_iff.mp found
  refine ⟨message, mem_of_find?_eq_some search, same, by simpa using List.find?_some search, ?_⟩
  intro other member before
  by_contra unacked
  rcases OrderedSet.find_some_first numbered.increasing search other member
    (by simpa using unacked) with rfl | after
  · exact lt_irrefl _ before
  · exact lt_asymm before after

theorem first_unacked_none (found : storage.firstUnackedPosition topic subscription = none)
    (member : message ∈ ledger.entries) :
    storage.isAcknowledged topic subscription message.1 = true := by
  rw [firstUnackedPosition, numbered.messages_eq, first_unacked_from_messages_eq,
    map_eq_none_iff, List.find?_eq_none] at found
  simpa using found message member

/-- The entry number leads straight to the message, or the search does. -/
theorem get_message_by_id (messageId : MessageId) (message : MessageId × Bytes) :
    storage.factory.getMessageById topic messageId = some message ↔
      message ∈ ledger.entries ∧ message.1 = messageId := by
  have search : ledger.entries.find? (fun message => decide (message.1 = messageId)) =
      some message ↔ message ∈ ledger.entries ∧ message.1 = messageId := by
    constructor
    · intro found
      exact ⟨mem_of_find?_eq_some found, by simpa using List.find?_some found⟩
    rintro ⟨member, rfl⟩
    cases search : ledger.entries.find? fun other => decide (other.1 = message.1) with
    | none =>
      rw [List.find?_eq_none] at search
      exact absurd (decide_eq_true rfl) (search message member)
    | some other =>
      have same : other.1 = message.1 := by simpa using List.find?_some search
      have distinct : (ledger.entries.map fun message => message.1.slot).Nodup := by
        rw [nodup_iff_pairwise_ne, pairwise_map]
        exact numbered.increasing.imp fun before => before.ne
      rw [inj_on_of_nodup_map distinct (mem_of_find?_eq_some search) member
        (congrArg MessageId.slot same)]
  simp only [InMemoryManagedLedgerFactory.getMessageById, InMemoryManagedLedgerFactory.messages,
    numbered.found, map_some]
  cases direct : ledger.entries[messageId.entry]? with
  | none => exact search
  | some other =>
    simp only
    split_ifs with same
    · rw [← search, some.injEq, search]
      constructor
      · rintro rfl
        exact ⟨mem_of_getElem? direct, same⟩
      rintro ⟨member, ids⟩
      obtain ⟨index, _, found, isIndex⟩ := numbered.index_of_mem member
      have entry : messageId.entry = index := by rw [← ids, isIndex]
      rw [entry, found] at direct
      exact (some.inj direct).symm
    · exact search

theorem presents : Presents ((memory storage).reader topic subscription)
      (viewOf topic subscription partition storage ledger) where
  lined := numbered.lined
  firstUnacked := by
    refine ⟨_, rfl, ?_⟩
    intro position found
    obtain ⟨message, member, rfl, unacked, before⟩ := numbered.first_unacked_some found
    refine ⟨numbered.readable member, ?_, storage.storedMessage message,
      mem_map.mpr ⟨message, member, rfl⟩, rfl, ?_⟩
    · intro other otherMember earlier
      obtain ⟨entry, inLedger, rfl⟩ := mem_map.mp otherMember
      exact before entry inLedger earlier
    · intro acked
      exact absurd ((is_acknowledged_slot _ _ partition _ ledger _).mpr acked) (by simp [unacked])
  exhausted _ found message member := by
    obtain ⟨entry, inLedger, rfl⟩ := mem_map.mp member
    exact numbered.first_unacked_none (Except.ok.inj found) inLedger
  read start _ := by
    have answer : ((memory storage).reader topic subscription).readEntriesFrom
        start 1 = .ok ((ledger.entries.find? fun message =>
          positionAtOrAfter message.1.toPosition start).toList.map storage.storedMessage) := by
      simp only [reader, readEntriesFrom, numbered.messages_eq, read_from_messages_one]
    rw [answer]
    cases search : ledger.entries.find? fun message =>
        positionAtOrAfter message.1.toPosition start with
    | none => exact .inl rfl
    | some message =>
      right
      refine ⟨storage.storedMessage message,
        mem_map.mpr ⟨message, mem_of_find?_eq_some search, rfl⟩, rfl, ?_, ?_⟩
      · have hit := List.find?_some search
        exact of_decide_eq_true hit
      intro other member after
      obtain ⟨entry, inLedger, rfl⟩ := mem_map.mp member
      rcases OrderedSet.find_some_first numbered.increasing search entry inLedger
        (decide_eq_true after) with rfl | later
      · exact le_refl _
      · exact later.le
  complete _ start _ nothing message member := by
    obtain ⟨entry, inLedger, rfl⟩ := mem_map.mp member
    simp only [reader, readEntriesFrom, numbered.messages_eq, read_from_messages_one,
      Except.ok.injEq, map_eq_nil_iff, toList_eq_nil_iff, List.find?_eq_none] at nothing
    exact not_le.mp fun after => nothing entry inLedger (decide_eq_true after)
  next message member := by
    obtain ⟨entry, inLedger, rfl⟩ := mem_map.mp member
    obtain ⟨readable, later, least⟩ := numbered.next_position inLedger
    refine ⟨_, rfl, ?_⟩
    intro position found
    rw [← some.inj found]
    refine ⟨readable, later, ?_⟩
    intro other otherMember beyond
    obtain ⟨otherEntry, otherInside, rfl⟩ := mem_map.mp otherMember
    exact least otherEntry otherInside beyond
  logicalNext message member := by
    obtain ⟨entry, inLedger, rfl⟩ := mem_map.mp member
    obtain ⟨readable, later, _⟩ := numbered.next_position inLedger
    exact ⟨readable, later⟩
  acknowledged := is_acknowledged_slot topic subscription partition storage ledger
  entry messageId message := by
    simp only [reader, getMessageEntryById, map_eq_some_iff]
    constructor
    · rintro ⟨entry, found, rfl⟩
      obtain ⟨member, ids⟩ := (numbered.get_message_by_id messageId entry).mp found
      exact ⟨mem_map.mpr ⟨entry, member, rfl⟩, ids⟩
    · rintro ⟨member, ids⟩
      obtain ⟨entry, inLedger, rfl⟩ := mem_map.mp member
      exact ⟨entry, (numbered.get_message_by_id messageId entry).mpr ⟨inLedger, ids⟩, rfl⟩

end Numbered

section

variable (numbered : Numbered topic subscription partition storage ledger)
include numbered

theorem Numbered.append (metadata payload : Bytes) (fits : ledger.entries.length + 2 < u64Modulus) :
    ∃ next, Numbered topic subscription partition
        (storage.appendMessageWithMetadata topic partition metadata payload).2 next ∧
      next.entries.length = ledger.entries.length + 1 ∧ ∃ message,
        (viewOf topic subscription partition
          (storage.appendMessageWithMetadata topic partition metadata payload).2 next).messages =
            (viewOf topic subscription partition storage ledger).messages ++ [message] ∧
        message.messageId.slot = toLex (ledger.ledgerId, ledger.entries.length) ∧
        next.ledgerId = ledger.ledgerId := by
  have ensured : storage.factory.ensureLedger topic = (ledger, storage.factory) := by
    simp [ensureLedger, numbered.found]
  refine ⟨(ledger.addEntryInPlace partition payload).2, ⟨?_, ?_, ?_, ?_⟩, ?_, ?_⟩
  · simp [appendMessageWithMetadata, appendEntry, ensured]
  · intro index message found
    change (ledger.entries ++ [_])[index]? = some message at found
    obtain old | new | beyond := lt_trichotomy index ledger.entries.length
    · rw [getElem?_append_left old] at found
      exact numbered.ids index message found
    · subst new
      rw [getElem?_concat_length, some.injEq] at found
      rw [← found]
      rfl
    · rw [getElem?_eq_none (by simp only [length_append, length_singleton]; omega)] at found
      cases found
  · simpa [addEntryInPlace] using fits
  · exact numbered.cursor
  · simp [addEntryInPlace]
  refine ⟨(storage.appendMessageWithMetadata topic partition metadata payload).2.storedMessage
    ((ledger.addEntryInPlace partition payload).1, payload), ?_, rfl, rfl⟩
  have kept message (member : message ∈ ledger.entries) :
      (storage.appendMessageWithMetadata topic partition metadata payload).2.storedMessage message =
        storage.storedMessage message := by
    obtain ⟨index, bound, _, ids⟩ := numbered.index_of_mem member
    have different : message.1 ≠ (ledger.addEntryInPlace partition payload).1 := by
      intro same
      have entries := congrArg MessageId.entry same
      rw [ids] at entries
      simp only [addEntryInPlace] at entries
      omega
    simp only [storedMessage, appendMessageWithMetadata, appendEntry, ensured]
    split_ifs with empty
    · rfl
    · rw [Function.update_of_ne different]
  rw [viewOf, viewOf]
  change (ledger.entries ++ [_]).map _ = _
  rw [map_append, map_singleton, map_congr_left kept]
  rfl

/-- An acknowledgement of a stored message. Once there is a cursor with holes, or
if there was no mark, it takes none back. -/
theorem Numbered.ack_message_shared {messageId : MessageId}
    (bound : messageId.entry + 1 < u64Modulus) :
    Numbered topic subscription partition
        (storage.ackMessageShared topic subscription messageId) ledger ∧
      Remembers topic subscription (storage.ackMessageShared topic subscription messageId) ∧
      (storage.ackMessageShared topic subscription messageId).isAcknowledged topic subscription
        messageId = true ∧
      (Remembers topic subscription storage → ∀ other,
        storage.isAcknowledged topic subscription other = true →
        (storage.ackMessageShared topic subscription messageId).isAcknowledged topic subscription
          other = true) := by
  have sound : ((storage.subscriptionCursors (cursorSubscriptionKey topic subscription)).getD
      .default).Sound := by
    cases held : storage.subscriptionCursors (cursorSubscriptionKey topic subscription) with
    | none => exact SubscriptionCursor.sound_default
    | some shared => exact numbered.cursor shared held
  obtain ⟨after, acked, _⟩ := SubscriptionCursor.ack_shared_spec sound bound
  have answers other : (storage.ackMessageShared topic subscription messageId).isAcknowledged
      topic subscription other = true ↔
        ((storage.subscriptionCursors (cursorSubscriptionKey topic subscription)).getD
          .default).Acked other.entry ∨ other.entry = messageId.entry := by
    rw [← acked, ← SubscriptionCursor.acknowledged_iff after]
    simp [isAcknowledged, ackMessageShared]
  refine ⟨⟨numbered.found, numbered.ids, numbered.sized, ?_⟩, ?_, ?_, ?_⟩
  · intro shared held
    simp only [ackMessageShared, Function.update_self, some.injEq] at held
    rw [← held]
    exact after
  · simp [Remembers, ackMessageShared]
  · exact (answers messageId).mpr (.inr rfl)
  intro remembers other before
  rw [answers]
  left
  cases held : storage.subscriptionCursors (cursorSubscriptionKey topic subscription) with
  | some shared =>
    rw [Option.getD_some, ← SubscriptionCursor.acknowledged_iff (numbered.cursor shared held)]
    simpa [isAcknowledged, held] using before
  | none =>
    obtain some | unmarked := remembers
    · simp [held] at some
    · simp [isAcknowledged, held, unmarked] at before

end

theorem numbered_created {base : InMemoryManagedLedgerStorage}
    (missing : base.factory.ledgers topic = none)
    (noCursor : base.subscriptionCursors (cursorSubscriptionKey topic subscription) = none)
    (partition : Int) :
    Numbered topic subscription partition (base.createTopic topic)
      (.new base.factory.nextLedgerId) where
  found := by simp [createTopic, ensureLedger, missing]
  ids := by simp [InMemoryManagedLedger.new]
  sized := by simp [InMemoryManagedLedger.new, u64Modulus]
  cursor shared held := by
    change base.subscriptionCursors _ = _ at held
    rw [noCursor] at held
    cases held

theorem Numbered.open_cursor (numbered : Numbered topic subscription partition storage ledger)
    (options) :
    Numbered topic subscription partition
      (storage.initializeOrOpenCursor topic subscription options).2 ledger := by
  have kept : (storage.initializeOrOpenCursor topic subscription options).2.factory =
        storage.factory ∧
      (storage.initializeOrOpenCursor topic subscription options).2.subscriptionCursors =
        storage.subscriptionCursors := by
    simp only [initializeOrOpenCursor, createCursor, applyStartMessageIdExclusive,
      applyLatestExclusive, ensureExclusiveCursor, insertCursor]
    split
    · exact ⟨rfl, rfl⟩
    cases options.startMessageId with
    | some start =>
      dsimp only
      split_ifs
      · exact ⟨rfl, rfl⟩
      · split
        · exact ⟨rfl, rfl⟩
        · exact ⟨rfl, rfl⟩
    | none =>
      repeat' split
      all_goals exact ⟨rfl, rfl⟩
  exact {
    found := (congrArg (fun factory => factory.ledgers topic) kept.1).trans numbered.found
    ids := numbered.ids
    sized := numbered.sized
    cursor := by
      rw [kept.2]
      exact numbered.cursor }

end InMemoryManagedLedgerStorage

end PulsarLite.Storage
