import PulsarLite.Library.Runs
import PulsarLite.Storage.TrackedCursor

/-!
# Messages are born unacknowledged

Clients open cursors, seek and acknowledge with ids of their own choice. An id
beyond the end of the log puts a mark or a range over messages that do not exist
yet, and these are then acknowledged as soon as they are appended. As long as no
id reaches beyond the end of the log, no message is.
-/

namespace PulsarLite.Storage.BornUnacked

open Library RocksDbManagedLedgerStorage ManagedCursorState StoredManagedLedgerInfo

inductive Operation
  | append (faults : AppendFaults) (items : List Item)
  | openCursor (subscription : Text) (options : CursorInitOptions)
  | seekCursor (subscription : Text) (messageId : MessageId)
  | ackMessage (subscription : Text) (messageId : MessageId)
  | ackMessageShared (subscription : Text) (messageId : MessageId)

variable (topic : Text) (storage : RocksDbManagedLedgerStorage)

def perform : Operation → RocksDbManagedLedgerStorage
  | .append faults items => (appendMessages faults topic items storage).2
  | .openCursor subscription options =>
    (initializeOrOpenCursor topic subscription options storage).2
  | .seekCursor subscription messageId => (seekCursor topic subscription messageId storage).2
  | .ackMessage subscription messageId => (ackMessage topic subscription messageId storage).2
  | .ackMessageShared subscription messageId =>
    (ackMessageShared topic subscription messageId storage).2

/-- Any id that a client can send, while the counters of the log stay in range. -/
def Typed : Operation → Prop
  | .append faults items => Fits topic (appendMessages faults topic items storage).2
  | .openCursor _ options => ∀ start ∈ options.startMessageId, start.IsWord
  | .seekCursor _ messageId => messageId.IsWord
  | .ackMessage _ messageId => messageId.IsWord
  | .ackMessageShared _ messageId => messageId.IsWord

variable (messageId : MessageId)

/-- The id may be sought: everything before it lies within the log. -/
def Reached : Prop :=
  messageId.entry = 0 ∨ ∀ ledger ∈ storage.ledgers (Keys.managedLedgerName topic),
    messageId.toPosition.slot ≤ ledger.info.writeSlot

/-- The id lies before the end of the log. -/
def Passed : Prop :=
  ∀ ledger ∈ storage.ledgers (Keys.managedLedgerName topic),
    messageId.toPosition.slot < ledger.info.writeSlot

instance (topic : Text) (storage : RocksDbManagedLedgerStorage) (messageId : MessageId) :
    Decidable (Passed topic storage messageId) :=
  inferInstanceAs (Decidable (∀ ledger ∈ _, _))

/-- No id that is looked at reaches beyond the end of the log. -/
def Within (topic : Text) (storage : RocksDbManagedLedgerStorage) : Operation → Prop
  | .append _ _ => True
  | .openCursor subscription options => storage.db (cursorKey topic subscription) = none →
      ∀ start ∈ options.startMessageId, Reached topic storage start
  | .seekCursor _ messageId => Reached topic storage messageId
  | .ackMessage _ messageId => Passed topic storage messageId
  | .ackMessageShared _ messageId => Passed topic storage messageId

/-- The invariant: whatever cursor can be read lies before the end of the log. -/
structure Bounded (topic : Text) (storage : RocksDbManagedLedgerStorage)
    (ledger : RocksDBManagedLedger) (log : CommittedLog) : Prop where
  serving : Serving topic storage ledger log
  encodable : ledger.info.Encodable
  cursors : ∀ subscription state, cursorState topic subscription storage = .ok state →
    state.WellFormed ∧ ∀ pos, state.Mentions pos → pos.slot < ledger.info.writeSlot

section

variable {topic subscription other : Text} {storage : RocksDbManagedLedgerStorage}
  {ledger : RocksDBManagedLedger} {log : CommittedLog} {state next : ManagedCursorState}
  {pos previous : ManagedLedgerPosition}

theorem bounded_start (history : TopicHistory topic storage log)
    (noCursors : ∀ subscription, storage.db (cursorKey topic subscription) = none) :
    ∃ ledger, Bounded topic storage ledger log := by
  obtain ⟨ledger, serving, encodable⟩ := history.serving
  refine ⟨ledger, serving, encodable, ?_⟩
  intro subscription state found
  rw [cursor_state_missing (noCursors subscription)] at found
  cases found
  have grounded := grounded_default ledger.info
  exact ⟨grounded.wellFormed, fun pos mentioned =>
    serving.settled.accounts.ordered.slot_lt_write_slot (grounded.stored pos mentioned)⟩

theorem cursor_state_same_key (same : cursorKey topic other = cursorKey topic subscription)
    (storage) : cursorState topic other storage = cursorState topic subscription storage := by
  unfold cursorKey at same
  simp only [cursorState, RocksDBManagedCursor.readState, same]

theorem Bounded.write (bounded : Bounded topic storage ledger log) (subscription : Text)
    (shaped : state.Shaped)
    (words : ∀ pos, state.Mentions pos → pos.ledgerId < u64Modulus ∧ pos.entryId < u64Modulus)
    (below : ∀ pos, state.Mentions pos → pos.slot < ledger.info.writeSlot) :
    Bounded topic (writeCursor topic subscription state.encode storage) ledger log where
  serving := bounded.serving.write_cursor subscription _
  encodable := bounded.encodable
  cursors other found read := by
    by_cases same : cursorKey topic other = cursorKey topic subscription
    · rw [cursor_state_same_key same, cursor_state_write] at read
      obtain ⟨rfl, wellFormed⟩ := shaped.decoded words read
      exact ⟨wellFormed, below⟩
    · rw [writeCursor, cursor_state_frame (set_cursor_frame _ _ _ _ same)] at read
      exact bounded.cursors other found read

theorem well_formed_words (wellFormed : state.WellFormed) (mentioned : state.Mentions pos) :
    pos.ledgerId < u64Modulus ∧ pos.entryId < u64Modulus := by
  have persistable := wellFormed.mentions mentioned
  exact ⟨persistable.ledger.trans i64_bound_lt, persistable.entry.trans i64_bound_lt⟩

theorem stores_words {info : StoredManagedLedgerInfo} (encodable : info.Encodable)
    (stores : info.Stores pos) : pos.ledgerId < u64Modulus ∧ pos.entryId < u64Modulus := by
  obtain ⟨ledgerBound, entryBound⟩ := stores_bounds encodable stores
  exact ⟨ledgerBound.trans i64_bound_lt, entryBound.trans i64_bound_lt⟩

variable {messageId : MessageId}

theorem Bounded.write_grown (bounded : Bounded topic storage ledger log)
    (found : cursorState topic subscription storage = .ok state) {messageId : MessageId}
    (word : messageId.IsWord) (passed : Passed topic storage messageId)
    (shaped : next.Shaped)
    (mentions : ∀ pos, next.Mentions pos → pos = cursorPosition messageId.toPosition ∨
      state.Mentions pos) :
    Bounded topic (writeCursor topic subscription next.encode storage) ledger log := by
  obtain ⟨wellFormed, below⟩ := bounded.cursors subscription state found
  apply bounded.write subscription shaped
  · intro pos mentioned
    obtain rfl | old := mentions pos mentioned
    · exact word
    · exact well_formed_words wellFormed old
  · intro pos mentioned
    obtain rfl | old := mentions pos mentioned
    · exact passed ledger bounded.serving.cached
    · exact below pos old

variable (bounded : Bounded topic storage ledger log)
include bounded

theorem Bounded.write_mark (subscription : Text) {mark : Option ManagedLedgerPosition}
    (words : ∀ pos ∈ mark, pos.ledgerId < u64Modulus ∧ pos.entryId < u64Modulus)
    (below : ∀ pos ∈ mark, pos.slot < ledger.info.writeSlot) :
    Bounded topic (writeCursor topic subscription (ManagedCursorState.encode {
      markDelete := mark.map cursorPosition
      individuallyDeletedEntries := RangeSet.empty }) storage) ledger log := by
  have mentions : ∀ pos, (ManagedCursorState.mk (mark.map cursorPosition)
      RangeSet.empty).Mentions pos → ∃ given ∈ mark, pos = cursorPosition given := by
    rintro pos (marked | ⟨range, member, _⟩)
    · obtain ⟨given, isMark, rfl⟩ := Option.map_eq_some_iff.mp marked
      exact ⟨given, isMark, rfl⟩
    · simp [RangeSet.empty] at member
  have shaped : (ManagedCursorState.mk (mark.map cursorPosition) RangeSet.empty).Shaped := by
    cases mark with
    | none => exact well_formed_default.shaped
    | some pos => exact well_formed_default.shaped.with_mark rfl
  apply bounded.write subscription shaped
  · intro pos mentioned
    obtain ⟨given, isMark, rfl⟩ := mentions pos mentioned
    exact words given isMark
  · intro pos mentioned
    obtain ⟨given, isMark, rfl⟩ := mentions pos mentioned
    exact below given isMark

theorem previous_position_within (word : messageId.IsWord)
    (reached : Reached topic storage messageId)
    (found : ledger.info.previousPosition messageId.toPosition = some previous) :
    (previous.ledgerId < u64Modulus ∧ previous.entryId < u64Modulus) ∧
      previous.slot < ledger.info.writeSlot := by
  have ordered := bounded.serving.settled.accounts.ordered
  by_cases zero : messageId.entry = 0
  · have entry : messageId.toPosition.entryId = 0 := zero
    have stores := previous_position_zero_stores entry found
    exact ⟨stores_words bounded.encodable stores, ordered.slot_lt_write_slot stores⟩
  have within : messageId.toPosition.slot ≤ ledger.info.writeSlot := by
    obtain isZero | within := reached
    · exact absurd isZero zero
    · exact within ledger bounded.serving.cached
  refine ⟨?_, (previous_position_some ordered found).2.1.trans_le within⟩
  have positive : 0 < messageId.toPosition.entryId := Nat.pos_of_ne_zero zero
  unfold previousPosition at found
  rw [if_pos positive] at found
  cases found
  obtain ⟨ledgerWord, entryWord⟩ := word
  exact ⟨ledgerWord, (Nat.sub_le _ _).trans_lt entryWord⟩

theorem bounded_open_cursor {options : CursorInitOptions}
    (words : ∀ start ∈ options.startMessageId, start.IsWord)
    (within : storage.db (cursorKey topic subscription) = none →
      ∀ start ∈ options.startMessageId, Reached topic storage start) :
    Bounded topic (initializeOrOpenCursor topic subscription options storage).2 ledger log := by
  rw [initialize_or_open_cursor_storage bounded.serving]
  split_ifs with missing
  · unfold initialState
    cases chosen : options.startMessageId with
    | some start =>
      have reached := within missing start chosen
      apply bounded.write_mark subscription
      · exact fun _ found => (previous_position_within bounded (words start chosen) reached found).1
      · exact fun _ found => (previous_position_within bounded (words start chosen) reached found).2
    | none =>
      cases options.initialPosition with
      | latest =>
        apply bounded.write_mark subscription
        · intro last isLast
          exact stores_words bounded.encodable (bounded.serving.lac_stores isLast)
        · intro last isLast
          exact bounded.serving.settled.accounts.ordered.slot_lt_write_slot
            (bounded.serving.lac_stores isLast)
      | earliest =>
        have nothing : ∀ pos : ManagedLedgerPosition, pos ∉ (none : Option _) := by simp
        exact bounded.write_mark subscription (fun pos given => absurd given (nothing pos))
          fun pos given => absurd given (nothing pos)
  · exact bounded

theorem bounded_seek (word : messageId.IsWord) (reached : Reached topic storage messageId) :
    Bounded topic (seekCursor topic subscription messageId storage).2 ledger log := by
  cases found : cursorState topic subscription storage with
  | error error =>
    rw [seekCursor, with_cursor_error bounded.serving.cached found]
    exact bounded
  | ok state =>
    rw [seek_cursor_eq bounded.serving found]
    apply bounded.write_mark subscription
    · intro previous isPrevious
      exact (previous_position_within bounded word reached isPrevious).1
    · intro previous isPrevious
      exact (previous_position_within bounded word reached isPrevious).2

section

variable (word : messageId.IsWord) (passed : Passed topic storage messageId)
include word passed

theorem bounded_ack_message :
    Bounded topic (ackMessage topic subscription messageId storage).2 ledger log := by
  cases found : cursorState topic subscription storage with
  | error error =>
    rw [ackMessage, with_cursor_error bounded.serving.cached found]
    exact bounded
  | ok state =>
    rw [ack_message_eq bounded.serving found]
    have wellFormed := (bounded.cursors subscription state found).1
    exact bounded.write_grown found word passed (wellFormed.shaped.with_mark rfl)
      fun pos mentioned => mentions_with_mark mentioned

theorem bounded_ack_message_shared :
    Bounded topic (ackMessageShared topic subscription messageId storage).2 ledger log := by
  cases found : cursorState topic subscription storage with
  | error error =>
    rw [ackMessageShared, with_cursor_error bounded.serving.cached found]
    exact bounded
  | ok state =>
    have wellFormed := (bounded.cursors subscription state found).1
    obtain ⟨shaped, mentions⟩ := RocksDBManagedCursor.ack_managed_cursor_shared_mentions
      ledger.info (cursorWith topic subscription storage state) messageId.toPosition
      wellFormed.shaped
    obtain ⟨_, unchanged⟩ | written := ack_message_shared_eq bounded.serving found messageId
    · rw [unchanged]
      exact bounded
    · rw [written]
      exact bounded.write_grown found word passed shaped mentions

end

theorem bounded_append (faults items)
    (fits : Fits topic (appendMessages faults topic items storage).2) :
    ∃ next nextLog, Bounded topic (appendMessages faults topic items storage).2 next nextLog := by
  obtain ⟨next, served, grown⟩ := serving_append bounded.serving faults items
  refine ⟨next, _, served, served.fits.mp fits, ?_⟩
  intro subscription state found
  rw [(append_messages_appended bounded.serving faults items).cursors subscription] at found
  obtain ⟨wellFormed, below⟩ := bounded.cursors subscription state found
  exact ⟨wellFormed, fun pos mentioned => (below pos mentioned).trans_le grown.advances⟩

theorem bounded_perform {operation : Operation} (typed : Typed topic storage operation)
    (within : Within topic storage operation) :
    ∃ next nextLog, Bounded topic (perform topic storage operation) next nextLog := by
  cases operation with
  | append faults items => exact bounded_append bounded faults items typed
  | openCursor subscription options =>
    exact ⟨ledger, log, bounded_open_cursor bounded typed within⟩
  | seekCursor subscription messageId => exact ⟨ledger, log, bounded_seek bounded typed within⟩
  | ackMessage subscription messageId =>
    exact ⟨ledger, log, bounded_ack_message bounded typed within⟩
  | ackMessageShared subscription messageId =>
    exact ⟨ledger, log, bounded_ack_message_shared bounded typed within⟩

end

/-- From the creation of a topic on, in every run whose ids stay within the log, a message
that an append returns is not acknowledged on any subscription. -/
theorem appended_messages_are_unacked (topic : Text)
    (start storage : RocksDbManagedLedgerStorage) (log : CommittedLog)
    (history : TopicHistory topic start log)
    (noCursors : ∀ subscription, start.db (cursorKey topic subscription) = none)
    (run : Run (perform topic) (fun storage operation => Typed topic storage operation ∧
      Within topic storage operation) start storage)
    (faults : AppendFaults) (items : List Item) (positions : List ManagedLedgerPosition)
    (answered : (appendMessages faults topic items storage).1 = .ok positions)
    (position : ManagedLedgerPosition) (member : position ∈ positions) (subscription : Text) :
    (isAcknowledged topic subscription position.toMessageId
      (appendMessages faults topic items storage).2).1 = false := by
  have invariant : ∃ ledger log, Bounded topic storage ledger log := by
    apply run.invariant
    · obtain ⟨ledger, bounded⟩ := bounded_start history noCursors
      exact ⟨ledger, log, bounded⟩
    · rintro storage operation ⟨ledger, log, bounded⟩ ⟨typed, within⟩
      exact bounded_perform bounded typed within
  obtain ⟨ledger, log, bounded⟩ := invariant
  have appended := append_messages_appended bounded.serving faults items
  obtain ⟨next, served, _, _, placed⟩ := appended.committed positions answered
  rw [is_acknowledged_eq served.cached, appended.cursors]
  cases found : cursorState topic subscription storage with
  | error error => rfl
  | ok state =>
    obtain ⟨wellFormed, below⟩ := bounded.cursors subscription state found
    have fresh := not_acked_beyond below (placed position member).1
    rw [← Bool.not_eq_true]
    intro acknowledged
    exact fresh ((acknowledged_iff wellFormed.shaped _).mp acknowledged)

def latestId : MessageId where
  ledger := i64Bound - 1
  entry := i64Bound - 1
  partition := -1

instance (topic : Text) (storage : RocksDbManagedLedgerStorage) (operation : Operation) :
    Decidable (Typed topic storage operation) :=
  match operation with
  | .append _ _ => inferInstanceAs (Decidable (Fits _ _))
  | .openCursor _ options => inferInstanceAs (Decidable (∀ start ∈ options.startMessageId, _))
  | .seekCursor _ _ => inferInstanceAs (Decidable (MessageId.IsWord _))
  | .ackMessage _ _ => inferInstanceAs (Decidable (MessageId.IsWord _))
  | .ackMessageShared _ _ => inferInstanceAs (Decidable (MessageId.IsWord _))

def soughtToEnd : RocksDbManagedLedgerStorage :=
  perform sampleTopic sampleStorage (.seekCursor sampleSubscription latestId)

/-- After a seek to the end of an empty topic, the first message that is appended
is acknowledged at once, and no message is left to deliver. -/
theorem seek_acknowledges_future_message :
    Run (perform sampleTopic) (Typed sampleTopic) sampleStorage soughtToEnd ∧
    (appendMessages .none sampleTopic [sampleMessage] soughtToEnd).1 =
      .ok [(sampleId 0).toPosition] ∧
    (isAcknowledged sampleTopic sampleSubscription (sampleId 0)
      (appendMessages .none sampleTopic [sampleMessage] soughtToEnd).2).1 = true ∧
    (firstUnackedPosition sampleTopic sampleSubscription
      (appendMessages .none sampleTopic [sampleMessage] soughtToEnd).2).1 = .ok none := by
  refine ⟨?_, by decide, by decide, by decide⟩
  exact Run.refl.step _ _ (by decide)

/-- A message acknowledged, and the next one appended. -/
theorem appended_messages_are_unacked_second :
    (isAcknowledged sampleTopic sampleSubscription (sampleId 1)
      (appendMessages .none sampleTopic [sampleMessage] (perform sampleTopic
        (perform sampleTopic sampleStorage (.append .none [sampleMessage]))
        (.ackMessage sampleSubscription (sampleId 0)))).2).1 = false := by
  apply appended_messages_are_unacked sampleTopic sampleStorage _ [] sample_history
    sample_no_cursors _ .none [sampleMessage] [(sampleId 1).toPosition] (by decide)
    (sampleId 1).toPosition (by decide)
  have passed : Passed sampleTopic (perform sampleTopic sampleStorage
      (.append .none [sampleMessage])) (sampleId 0) := by decide
  have appended : Run (perform sampleTopic) (fun storage operation =>
      Typed sampleTopic storage operation ∧ Within sampleTopic storage operation) sampleStorage
      (perform sampleTopic sampleStorage (.append .none [sampleMessage])) :=
    Run.refl.step _ _ ⟨by decide, trivial⟩
  exact appended.step _ _ ⟨by decide, passed⟩

end PulsarLite.Storage.BornUnacked
