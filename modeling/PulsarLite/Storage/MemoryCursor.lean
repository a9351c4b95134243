import PulsarLite.Library.Runs
import PulsarLite.Storage.MemoryView

/-!
# The cursors of a subscription in memory

A subscription has a plain mark, a cursor with holes, or both, and the cursor with
holes hides the mark. Whatever operations name stored messages only, the two maps
acknowledge stored messages only.
-/

namespace PulsarLite.Storage

open Library List SubscriptionCursor ManagedLedgerPosition Option Function
  InMemoryManagedLedgerFactory
open RangeSet (empty)

namespace SubscriptionCursor

theorem marked_acked (mark entry) : Acked ⟨mark, empty⟩ entry ↔ ∃ last ∈ mark, entry ≤ last := by
  simp [Acked, RangeSet.Covers, empty]

theorem marked_sound {mark : Option Nat}
    (words : ∀ entry, Acked ⟨mark, empty⟩ entry → entry + 1 < u64Modulus) :
    Sound ⟨mark, empty⟩ where
  normal := RangeSet.normalised_empty
  above := by simp [empty]
  words := words

end SubscriptionCursor

namespace InMemoryManagedLedgerStorage

variable {after : InMemoryManagedLedgerStorage}

section

def Stored (topic : Text) (storage : InMemoryManagedLedgerStorage) (messageId : MessageId) : Prop :=
  messageId ∈ (storage.messages topic).map Prod.fst

instance (topic : Text) (storage : InMemoryManagedLedgerStorage) (messageId : MessageId) :
    Decidable (Stored topic storage messageId) :=
  inferInstanceAs (Decidable (_ ∈ _))

/-- The messages are numbered from zero in one ledger, and both maps acknowledge
stored entries only. -/
structure Anchored (topic subscription : Text) (storage : InMemoryManagedLedgerStorage) :
    Prop where
  ids : ∀ ledger, storage.factory.ledgers topic = some ledger →
    ∀ (index : Nat) (message : MessageId × Bytes), ledger.entries[index]? = some message →
      message.1.ledger = ledger.ledgerId ∧ message.1.entry = index
  sized : (storage.messages topic).length + 1 < u64Modulus
  plain : ∀ mark, storage.cursors (cursorSubscriptionKey topic subscription) = some mark →
    mark = u64Max ∨ mark < (storage.messages topic).length
  sound : ∀ shared,
    storage.subscriptionCursors (cursorSubscriptionKey topic subscription) = some shared →
      shared.Sound
  within : ∀ shared,
    storage.subscriptionCursors (cursorSubscriptionKey topic subscription) = some shared →
      ∀ entry, shared.Acked entry → entry < (storage.messages topic).length

variable {topic subscription : Text} {storage : InMemoryManagedLedgerStorage}
  {messageId : MessageId} {entry : Nat}

theorem messages_of_ledger {ledger} (found : storage.factory.ledgers topic = some ledger) :
    storage.messages topic = ledger.entries := by
  rw [messages, InMemoryManagedLedgerFactory.messages, found]
  rfl

theorem messages_of_none (missing : storage.factory.ledgers topic = none) :
    storage.messages topic = [] := by
  rw [messages, InMemoryManagedLedgerFactory.messages, missing]
  rfl

section

variable (anchored : Anchored topic subscription storage)
include anchored

theorem Anchored.entry_eq {index : Nat} {message : MessageId × Bytes}
    (found : (storage.messages topic)[index]? = some message) : message.1.entry = index := by
  cases opened : storage.factory.ledgers topic with
  | none => simp [messages_of_none opened] at found
  | some ledger =>
    rw [messages_of_ledger opened] at found
    exact (anchored.ids ledger opened index message found).2

theorem Anchored.entry_lt (stored : Stored topic storage messageId) :
    messageId.entry < (storage.messages topic).length := by
  obtain ⟨message, member, rfl⟩ := mem_map.mp stored
  obtain ⟨index, found⟩ := mem_iff_getElem?.mp member
  rw [anchored.entry_eq found]
  exact (List.getElem?_eq_some_iff.mp found).1

theorem Anchored.stored_of_lt (bound : entry < (storage.messages topic).length) :
    ∃ messageId, Stored topic storage messageId ∧ messageId.entry = entry := by
  have found := getElem?_eq_getElem bound
  exact ⟨_, mem_map_of_mem (mem_of_getElem? found), anchored.entry_eq found⟩

theorem Anchored.ne_max (stored : Stored topic storage messageId) : messageId.entry ≠ u64Max := by
  have bound := anchored.entry_lt stored
  have sized := anchored.sized
  unfold u64Max
  omega

end

/-- What the two maps acknowledge. -/
def Acks (topic subscription : Text) (storage : InMemoryManagedLedgerStorage) (entry : Nat) :
    Prop :=
  match storage.subscriptionCursors (cursorSubscriptionKey topic subscription) with
  | some shared => shared.Acked entry
  | none => ∃ mark, storage.cursors (cursorSubscriptionKey topic subscription) = some mark ∧
      mark ≠ u64Max ∧ entry ≤ mark

variable (anchored : Anchored topic subscription storage)
include anchored

theorem Anchored.is_acknowledged (messageId : MessageId) :
    storage.isAcknowledged topic subscription messageId = true ↔
      Acks topic subscription storage messageId.entry := by
  unfold isAcknowledged Acks
  dsimp only
  cases held : storage.subscriptionCursors (cursorSubscriptionKey topic subscription) with
  | some shared => exact SubscriptionCursor.acknowledged_iff (anchored.sound shared held) _
  | none =>
    cases storage.cursors (cursorSubscriptionKey topic subscription) with
    | none | some => simp

theorem Anchored.acks_lt
    (acks : Acks topic subscription storage entry) : entry < (storage.messages topic).length := by
  unfold Acks at acks
  split at acks
  next shared held => exact anchored.within shared held entry acks
  next =>
    obtain ⟨mark, found, real, below⟩ := acks
    obtain isMax | bound := anchored.plain mark found
    · exact absurd isMax real
    · exact below.trans_lt bound

end

variable {topic subscription : Text} {storage : InMemoryManagedLedgerStorage}
  {messageId : MessageId}

/-- Acknowledgements and seeks name stored messages, and the counter of the ledger
stays in range. -/
def Allowed (topic : Text) (storage : InMemoryManagedLedgerStorage) : Operation → Prop
  | .createTopic => True
  | .append _ _ _ => (storage.messages topic).length + 2 < u64Modulus
  | .initializeOrOpenCursor options => ∀ start ∈ options.startMessageId, Stored topic storage start
  | .ackMessage messageId => Stored topic storage messageId
  | .ackMessageShared messageId => Stored topic storage messageId
  | .seekCursor messageId _ => Stored topic storage messageId
  | .deleteCursor => True

instance (topic : Text) (storage : InMemoryManagedLedgerStorage) (operation : Operation) :
    Decidable (Allowed topic storage operation) :=
  match operation with
  | .createTopic => inferInstanceAs (Decidable True)
  | .append _ _ _ => inferInstanceAs (Decidable (_ < _))
  | .initializeOrOpenCursor options =>
    inferInstanceAs (Decidable (∀ start ∈ options.startMessageId, _))
  | .ackMessage _ => inferInstanceAs (Decidable (Stored _ _ _))
  | .ackMessageShared _ => inferInstanceAs (Decidable (Stored _ _ _))
  | .seekCursor _ _ => inferInstanceAs (Decidable (Stored _ _ _))
  | .deleteCursor => inferInstanceAs (Decidable True)

section

variable (storage : InMemoryManagedLedgerStorage)

@[simp] theorem insert_cursor_self (key mark) :
    (storage.insertCursor key mark).cursors key = some mark :=
  update_self _ _ _

@[simp] theorem ack_message_shared_cursor (topic subscription : Text) (messageId : MessageId) :
    (storage.ackMessageShared topic subscription messageId).subscriptionCursors
      (cursorSubscriptionKey topic subscription) = some (ackShared
        ((storage.subscriptionCursors (cursorSubscriptionKey topic subscription)).getD
          .default) messageId.entry) :=
  update_self _ _ _

@[simp] theorem delete_cursor_plain (topic subscription : Text) :
    (storage.deleteCursor topic subscription).cursors
      (cursorSubscriptionKey topic subscription) = none :=
  update_self _ _ _

@[simp] theorem delete_cursor_shared (topic subscription : Text) :
    (storage.deleteCursor topic subscription).subscriptionCursors
      (cursorSubscriptionKey topic subscription) = none :=
  update_self _ _ _

end

theorem messages_create_topic : (storage.createTopic topic).messages topic =
    storage.messages topic := by
  unfold messages createTopic InMemoryManagedLedgerFactory.messages ensureLedger
  cases found : storage.factory.ledgers topic with
  | some ledger => simp [found]
  | none => simp [InMemoryManagedLedger.new]

theorem anchored_new : Anchored topic subscription new where
  ids := nofun
  sized := by
    rw [messages_of_none rfl]
    decide
  plain := nofun
  sound := nofun
  within := nofun

theorem messages_congr (same : after.factory.ledgers topic = storage.factory.ledgers topic) :
    after.messages topic = storage.messages topic := by
  rw [messages, InMemoryManagedLedgerFactory.messages, same, messages,
    InMemoryManagedLedgerFactory.messages]

section

variable (anchored : Anchored topic subscription storage)
include anchored

theorem Anchored.with_maps (same : after.factory.ledgers topic = storage.factory.ledgers topic)
    (plain : ∀ mark, after.cursors (cursorSubscriptionKey topic subscription) = some mark →
      mark = u64Max ∨ mark < (storage.messages topic).length)
    (shared : ∀ cursor, after.subscriptionCursors (cursorSubscriptionKey topic subscription) =
      some cursor → cursor.Sound ∧ ∀ entry, cursor.Acked entry →
      entry < (storage.messages topic).length) :
    Anchored topic subscription after where
  ids := by
    rw [same]
    exact anchored.ids
  sized := by
    rw [messages_congr same]
    exact anchored.sized
  plain := by
    rw [messages_congr same]
    exact plain
  sound cursor held := (shared cursor held).1
  within := by
    rw [messages_congr same]
    exact fun cursor held => (shared cursor held).2

theorem Anchored.shared (cursor)
    (held : storage.subscriptionCursors (cursorSubscriptionKey topic subscription) = some cursor) :
    cursor.Sound ∧ ∀ entry, cursor.Acked entry → entry < (storage.messages topic).length :=
  ⟨anchored.sound cursor held, anchored.within cursor held⟩

theorem Anchored.insert_cursor {mark : Nat}
    (bound : mark = u64Max ∨ mark < (storage.messages topic).length) :
    Anchored topic subscription
      (storage.insertCursor (cursorSubscriptionKey topic subscription) mark) := by
  apply anchored.with_maps
  · rfl
  · intro other held
    rw [insert_cursor_self] at held
    cases held
    exact bound
  · exact anchored.shared

theorem Anchored.ensure_exclusive : Anchored topic subscription
      (storage.ensureExclusiveCursor (cursorSubscriptionKey topic subscription)) := by
  unfold ensureExclusiveCursor
  split
  · exact anchored
  · exact anchored.insert_cursor (.inl rfl)

theorem Anchored.create_topic : Anchored topic subscription (storage.createTopic topic) where
  ids ledger found := by
    unfold createTopic ensureLedger at found
    cases held : storage.factory.ledgers topic with
    | some old =>
      simp only [held] at found
      exact anchored.ids ledger (held.trans found)
    | none =>
      simp only [held, update_self] at found
      cases found
      simp [InMemoryManagedLedger.new]
  sized := by
    rw [messages_create_topic]
    exact anchored.sized
  plain := by
    rw [messages_create_topic]
    exact anchored.plain
  sound := anchored.sound
  within := by
    rw [messages_create_topic]
    exact anchored.within

end

section

variable (storage : InMemoryManagedLedgerStorage)

theorem append_ledger (topic partition metadata payload) : ∃ ledger,
      (storage.factory.ledgers topic = some ledger ∨
        storage.factory.ledgers topic = none ∧ ledger.entries = []) ∧
      (storage.appendMessageWithMetadata topic partition metadata payload).2.factory.ledgers topic =
        some (ledger.addEntryInPlace partition payload).2 := by
  unfold appendMessageWithMetadata appendEntry ensureLedger
  cases found : storage.factory.ledgers topic with
  | some ledger => exact ⟨ledger, .inl rfl, update_self _ _ _⟩
  | none =>
    exact ⟨_, .inr ⟨rfl, rfl⟩, update_self _ _ _⟩

theorem messages_append (topic partition metadata payload) : ∃ messageId,
      (storage.appendMessageWithMetadata topic partition metadata payload).2.messages topic =
        storage.messages topic ++ [(messageId, payload)] := by
  obtain ⟨ledger, held, appended⟩ := append_ledger storage topic partition metadata payload
  refine ⟨(ledger.addEntryInPlace partition payload).1, ?_⟩
  rw [messages_of_ledger appended]
  obtain found | ⟨missing, empty⟩ := held
  · rw [messages_of_ledger found]
    rfl
  · rw [messages_of_none missing, InMemoryManagedLedger.addEntryInPlace, empty]

end

section

variable (anchored : Anchored topic subscription storage)
include anchored

theorem Anchored.append (partition metadata payload)
    (fits : (storage.messages topic).length + 2 < u64Modulus) :
    Anchored topic subscription
      (storage.appendMessageWithMetadata topic partition metadata payload).2 := by
  obtain ⟨messageId, messages⟩ := messages_append storage topic partition metadata payload
  have longer : (storage.messages topic).length + 1 =
      ((storage.appendMessageWithMetadata topic partition metadata payload).2.messages
        topic).length := by
    rw [messages, length_append, length_singleton]
  constructor
  · intro last found index message isMessage
    obtain ⟨ledger, held, appended⟩ := append_ledger storage topic partition metadata payload
    cases found.symm.trans appended
    change (ledger.entries ++ [_])[index]? = some message at isMessage
    have old other : ledger.entries[index]? = some other →
        other.1.ledger = ledger.ledgerId ∧ other.1.entry = index := by
      intro isOther
      obtain opened | ⟨_, empty⟩ := held
      · exact anchored.ids ledger opened index other isOther
      · simp [empty] at isOther
    rw [getElem?_append] at isMessage
    split_ifs at isMessage with early
    · exact old message isMessage
    have isLast : index = ledger.entries.length := by
      by_contra different
      rw [getElem?_eq_none (by simp only [length_singleton]; omega)] at isMessage
      cases isMessage
    rw [isLast, Nat.sub_self, getElem?_cons_zero, some.injEq] at isMessage
    rw [← isMessage, isLast]
    exact ⟨rfl, rfl⟩
  · rw [← longer]
    exact fits
  · intro mark held
    have old := anchored.plain mark held
    omega
  · exact anchored.sound
  · intro shared held entry acked
    have old := anchored.within shared held entry acked
    omega

theorem Anchored.open_cursor {options}
    (stored : ∀ start ∈ options.startMessageId, Stored topic storage start) :
    Anchored topic subscription
      (storage.initializeOrOpenCursor topic subscription options).2 := by
  unfold initializeOrOpenCursor
  split_ifs
  · exact anchored
  unfold createCursor
  split
  next start chosen =>
    unfold applyStartMessageIdExclusive
    split_ifs
    · have bound := anchored.entry_lt (stored start chosen)
      exact anchored.insert_cursor (.inr (by omega))
    · exact anchored.ensure_exclusive
  next =>
    split
    · unfold applyLatestExclusive lastPositionFromMessages
      split
      next last found =>
        obtain ⟨message, isLast, rfl⟩ := map_eq_some_iff.mp found
        exact anchored.insert_cursor (.inr (anchored.entry_lt
          (mem_map_of_mem (mem_of_getLast? isLast))))
      next => exact anchored.ensure_exclusive
    · exact anchored.ensure_exclusive

theorem Anchored.ack_message (stored : Stored topic storage messageId) :
    Anchored topic subscription (storage.ackMessage topic subscription messageId) :=
  anchored.insert_cursor (.inr (anchored.entry_lt stored))

theorem Anchored.default_sound :
    ((storage.subscriptionCursors (cursorSubscriptionKey topic subscription)).getD
      .default).Sound ∧
    ∀ entry, ((storage.subscriptionCursors (cursorSubscriptionKey topic subscription)).getD
      .default).Acked entry → entry < (storage.messages topic).length := by
  cases held : storage.subscriptionCursors (cursorSubscriptionKey topic subscription) with
  | some shared => exact anchored.shared shared held
  | none =>
    refine ⟨sound_default, ?_⟩
    intro entry acked
    simp [SubscriptionCursor.Acked, SubscriptionCursor.default, RangeSet.Covers, empty] at acked

section

variable (stored : Stored topic storage messageId)
include stored

theorem Anchored.ack_message_shared :
    Anchored topic subscription (storage.ackMessageShared topic subscription messageId) ∧
      ∀ entry, Acks topic subscription (storage.ackMessageShared topic subscription messageId)
          entry ↔
        ((storage.subscriptionCursors (cursorSubscriptionKey topic subscription)).getD
          .default).Acked entry ∨ entry = messageId.entry := by
  obtain ⟨sound, within⟩ := anchored.default_sound
  have bound := anchored.entry_lt stored
  have sized := anchored.sized
  obtain ⟨after, acked, _⟩ := ack_shared_spec sound (show messageId.entry + 1 < u64Modulus by omega)
  constructor
  · apply anchored.with_maps
    · rfl
    · exact anchored.plain
    intro cursor held
    rw [ack_message_shared_cursor] at held
    cases held
    refine ⟨after, ?_⟩
    intro entry isAcked
    obtain old | rfl := (acked entry).mp isAcked
    · exact within entry old
    · exact bound
  · intro entry
    rw [← acked, Acks, ack_message_shared_cursor]

theorem Anchored.previous_of : (storage.previousOf topic messageId).map entryId =
      if messageId.entry = 0 then none else some (messageId.entry - 1) := by
  obtain ⟨target, member, rfl⟩ := mem_map.mp stored
  cases found : storage.factory.ledgers topic with
  | none => simp [messages_of_none found] at member
  | some ledger =>
    rw [messages_of_ledger found] at member
    have ids := anchored.ids ledger found
    obtain ⟨index, isTarget⟩ := List.mem_iff_getElem?.mp member
    have bound := (List.getElem?_eq_some_iff.mp isTarget).1
    obtain ⟨sameLedger, isEntry⟩ := ids index target isTarget
    have before : ∀ position ∈ (ledger.entries.map fun message =>
        message.1.toPosition).take index, position < target.1.toPosition := by
      intro position isBefore
      obtain ⟨earlier, early, isPosition⟩ := mem_take_iff_getElem.mp isBefore
      rw [getElem_map] at isPosition
      have earlierBound : earlier < ledger.entries.length := by omega
      obtain ⟨otherLedger, otherEntry⟩ := ids earlier _ (getElem?_eq_getElem earlierBound)
      rw [← isPosition, lt_iff, slot_lt_iff]
      left
      right
      exact ⟨otherLedger.trans sameLedger.symm, by
        change (ledger.entries[earlier].1).entry < target.1.entry
        omega⟩
    -- so the target is where the search stops
    have taken : (ledger.entries.map fun message => message.1.toPosition).takeWhile
        (fun position => decide (position < target.1.toPosition)) =
          (ledger.entries.map fun message => message.1.toPosition).take index := by
      have next : (ledger.entries.map fun message => message.1.toPosition).drop index =
          target.1.toPosition ::
            (ledger.entries.map fun message => message.1.toPosition).drop (index + 1) := by
        rw [List.drop_eq_getElem_cons (by simpa using bound), List.getElem_map,
          (List.getElem?_eq_some_iff.mp isTarget).2]
      conv_lhs => rw [← List.take_append_drop index (ledger.entries.map fun message =>
          message.1.toPosition)]
      rw [takeWhile_append_of_pos (by simpa using before), next,
        takeWhile_cons_of_neg (by simp), append_nil]
    rw [previousOf, messages_of_ledger found, taken, isEntry]
    by_cases first : index = 0
    · simp [first]
    rw [if_neg first, getLast?_eq_getElem?, length_take, length_map,
      min_eq_left bound.le, getElem?_take_of_lt (by omega), getElem?_map,
      getElem?_eq_getElem (by omega)]
    obtain ⟨_, isPrevious⟩ := ids (index - 1) _ (getElem?_eq_getElem (by omega))
    exact congrArg some isPrevious

theorem Anchored.seek (shared : Bool) :
    Anchored topic subscription (storage.seekCursor topic subscription messageId shared) ∧
      ∀ entry, Acks topic subscription (storage.seekCursor topic subscription messageId shared)
        entry ↔ entry < messageId.entry := by
  have previous := anchored.previous_of stored
  have bound := anchored.entry_lt stored
  have sized := anchored.sized
  unfold seekCursor
  cases shared with
  | true =>
    simp only [if_true, previous]
    have acked entry : SubscriptionCursor.Acked ⟨if messageId.entry = 0 then none
        else some (messageId.entry - 1), empty⟩ entry ↔ entry < messageId.entry := by
      rw [marked_acked]
      split_ifs with first
      · simp [first]
      · simp only [mem_def, some.injEq, exists_eq_left']
        omega
    constructor
    · apply anchored.with_maps
      · rfl
      · intro mark held
        dsimp only at held
        rw [update_self] at held
        cases held
      intro cursor held
      dsimp only at held
      rw [update_self] at held
      cases held
      refine ⟨marked_sound ?_, ?_⟩
      · intro entry isAcked
        have below := (acked entry).mp isAcked
        omega
      · intro entry isAcked
        exact ((acked entry).mp isAcked).trans bound
    · intro entry
      simp only [Acks, update_self]
      exact acked entry
  | false =>
    simp only [Bool.false_eq_true, if_false, previous]
    constructor
    · apply anchored.with_maps
      · rfl
      · intro mark held
        dsimp only at held
        rw [update_self] at held
        cases held
        split_ifs
        · exact .inl rfl
        · exact .inr (by simp only [getD_some]; omega)
      · intro cursor held
        dsimp only at held
        rw [update_self] at held
        cases held
    · intro entry
      simp only [Acks, update_self, some.injEq, exists_eq_left']
      unfold u64Max
      split_ifs with first
      · simp [first]
      · simp only [getD_some]
        omega

end

theorem Anchored.delete :
    Anchored topic subscription (storage.deleteCursor topic subscription) := by
  apply anchored.with_maps
  · rfl
  · intro mark held
    rw [delete_cursor_plain] at held
    cases held
  · intro cursor held
    rw [delete_cursor_shared] at held
    cases held

theorem Anchored.perform {operation : Operation} (allowed : Allowed topic storage operation) :
    Anchored topic subscription (perform topic subscription storage operation) := by
  cases operation with
  | createTopic => exact anchored.create_topic
  | append partition metadata payload => exact anchored.append partition metadata payload allowed
  | initializeOrOpenCursor options => exact anchored.open_cursor allowed
  | ackMessage messageId => exact anchored.ack_message allowed
  | ackMessageShared messageId => exact (anchored.ack_message_shared allowed).1
  | seekCursor messageId shared => exact (anchored.seek allowed shared).1
  | deleteCursor => exact anchored.delete

end

theorem anchored_run (run : Run (perform topic subscription) (Allowed topic) new storage) :
    Anchored topic subscription storage :=
  run.invariant anchored_new fun _ _ anchored allowed => anchored.perform allowed

end InMemoryManagedLedgerStorage

end PulsarLite.Storage
