import PulsarLite.Storage.Store

/-!
# A topic that is being served

What the operations of the storage do to a topic whose ledger is open: each one
is an update of one cursor's value, or an append to the committed log. A topic
stays served over cursor updates, appends and restarts of the process.
-/

namespace PulsarLite.Storage.RocksDbManagedLedgerStorage

open Keys Function

open RocksDBManagedLedger RocksDBManagedCursor

/-- The storage serves a topic: its ledger is open, with the given log, and the
database has what it takes to open it again. -/
structure Serving (topic : Text) (storage : RocksDbManagedLedgerStorage)
    (ledger : RocksDBManagedLedger) (log : CommittedLog) : Prop where
  cached : storage.ledgers (managedLedgerName topic) = some ledger
  named : ledger.name = managedLedgerName topic
  settled : Settled ledger storage.db log
  persisted : storage.db (managedLedgerKey (managedLedgerName topic)) =
    some (.managedLedgerInfo ledger.info.encode)
  located : Located Describes storage.db log

variable (topic subscription : Text)

def cursorKey : Text :=
  managedCursorKey (managedLedgerName topic) (encodeCursorName subscription)

variable (storage : RocksDbManagedLedgerStorage)

def cursorState : Except String ManagedCursorState :=
  readState (managedLedgerName topic) (encodeCursorName subscription) storage.db

/-- The database with any value, or none, for a cursor. -/
def setCursor (value : Option DbValue)
    (storage : RocksDbManagedLedgerStorage) : RocksDbManagedLedgerStorage :=
  { storage with db := update storage.db (cursorKey topic subscription) value }

def writeCursor (info : Proto.ManagedCursorInfo) :
    RocksDbManagedLedgerStorage → RocksDbManagedLedgerStorage :=
  setCursor topic subscription (some (.managedCursorInfo info))

def cursorWith (state : ManagedCursorState) : RocksDBManagedCursor where
  managedledgerName := managedLedgerName topic
  name := encodeCursorName subscription
  db := storage.db
  state := state

variable {topic subscription : Text} {storage : RocksDbManagedLedgerStorage}
  {ledger : RocksDBManagedLedger} {log : CommittedLog}

theorem topic_ledger_cached (cached : storage.ledgers (managedLedgerName topic) = some ledger) :
    topicLedger topic storage = (.ok ledger, storage) := by
  simp [topicLedger, openLedger, getOrOpenLedger, cached]

theorem topic_cursor_eq (topic subscription storage) : topicCursor topic subscription storage =
      (cursorState topic subscription storage).map (cursorWith topic subscription storage) := by
  cases readState (managedLedgerName topic) (encodeCursorName subscription)
      storage.db with
  | error | ok => rfl

variable {state : ManagedCursorState}

section

variable (cached : storage.ledgers (managedLedgerName topic) = some ledger)
include cached

variable {change : RocksDBManagedLedger → RocksDBManagedCursor → RocksDBManagedCursor}

theorem with_cursor_ok (found : cursorState topic subscription storage = .ok state) :
    withCursor topic subscription change storage = (.ok (), { storage with
      db := (change ledger (cursorWith topic subscription storage state)).db }) := by
  simp [withCursor, topic_ledger_cached cached, topic_cursor_eq, found, Except.map]

theorem with_cursor_error {error : String}
    (found : cursorState topic subscription storage = .error error) :
    withCursor topic subscription change storage = (.error error, storage) := by
  simp [withCursor, topic_ledger_cached cached, topic_cursor_eq, found, Except.map]

theorem is_acknowledged_eq (messageId : MessageId) :
    (isAcknowledged topic subscription messageId storage).1 =
      match cursorState topic subscription storage with
      | .ok state => isManagedPositionAcknowledged state messageId.toPosition
      | .error _ => false := by
  cases found : cursorState topic subscription storage with
  | error error =>
    simp [isAcknowledged, isAcknowledgedShared, readCursor, topic_ledger_cached cached,
      topic_cursor_eq, found, Except.map]
  | ok state =>
    simp [isAcknowledged, isAcknowledgedShared, readCursor, topic_ledger_cached cached,
      topic_cursor_eq, found, Except.map, cursorWith]

end

theorem touched_db {after} (touched : Touched (cursorWith topic subscription storage state) after) :
    after.state = state ∧ { storage with db := after.db } = storage ∨
      { storage with db := after.db } =
        writeCursor topic subscription after.state.encode storage := by
  obtain rfl | stored := touched
  · exact .inl ⟨rfl, rfl⟩
  · right
    rw [stored]
    rfl

theorem set_cursor_frame (topic subscription value storage) {key : Text}
    (different : key ≠ cursorKey topic subscription) :
    (setCursor topic subscription value storage).db key = storage.db key := by
  simp [setCursor, different]

theorem cursor_state_write (topic subscription : Text) (state : ManagedCursorState) (storage) :
    cursorState topic subscription (writeCursor topic subscription state.encode storage) =
      ManagedCursorState.decode state.encode := by
  simp [cursorState, writeCursor, setCursor, readState, cursorKey]

theorem cursor_state_frame {before after}
    (same : after.db (cursorKey topic subscription) = before.db (cursorKey topic subscription)) :
    cursorState topic subscription after = cursorState topic subscription before := by
  unfold cursorKey at same
  simp only [cursorState, readState, same]

theorem cursor_state_missing (missing : storage.db (cursorKey topic subscription) = none) :
    cursorState topic subscription storage = .ok .default := by
  unfold cursorKey at missing
  simp only [cursorState, readState, missing]

theorem Serving.set_cursor (serving : Serving topic storage ledger log) (subscription : Text)
    (value) :
    Serving topic (setCursor topic subscription value storage) ledger log where
  cached := serving.cached
  named := serving.named
  settled := {
    accounts := serving.settled.accounts
    runtime := serving.settled.runtime
    lac := serving.settled.lac
    ahead := by
      obtain ⟨next, found, below⟩ := serving.settled.ahead
      refine ⟨next, (next_ledger_id_frame ?_).trans found, below⟩
      exact set_cursor_frame _ _ _ _ (cursor_key_ne_allocator_key _ _).symm }
  persisted := (set_cursor_frame _ _ _ _ (cursor_key_ne_ledger_key _ _).symm).trans
    serving.persisted
  located entry member := by
    obtain ⟨index, found, described⟩ := serving.located entry member
    exact ⟨index, (set_cursor_frame _ _ _ _ (cursor_key_ne_entry_key _ _ _ _).symm).trans found,
      described⟩

theorem Serving.write_cursor (serving : Serving topic storage ledger log) (subscription : Text)
    (info) :
    Serving topic (writeCursor topic subscription info storage) ledger log :=
  serving.set_cursor subscription _

structure Appended (topic : Text) (storage : RocksDbManagedLedgerStorage)
    (ledger : RocksDBManagedLedger) (log : CommittedLog) (items : List Item)
    (result : Except String (List ManagedLedgerPosition))
    (after : RocksDbManagedLedgerStorage) : Prop where
  cursors : ∀ subscription, cursorState topic subscription after =
    cursorState topic subscription storage
  refused : ∀ error, result = .error error → Serving topic after ledger log
  committed : ∀ positions, result = .ok positions → ∃ next,
    Serving topic after next (log ++ positions.zip items) ∧ ledger.info.Extends next.info ∧
    positions.length = items.length ∧
    ∀ position ∈ positions, ledger.info.writeSlot ≤ position.slot ∧ next.info.Stores position

theorem append_messages_cursor (serving : Serving topic storage ledger log) (faults items)
    (subscription : Text) :
    (appendMessages faults topic items storage).2.db (cursorKey topic subscription) =
      storage.db (cursorKey topic subscription) := by
  simp only [appendMessages, appendItems, topic_ledger_cached serving.cached]
  by_cases empty : items = []
  · subst empty
    rfl
  rcases add_entries_cases faults ledger storage.db storage.entryLog empty with
    refused | ⟨assigned, indices, committed⟩
  · exact refused.moved.frame _ (cursor_key_ne_allocator_key _ _)
  rw [committed.db_eq, cursorKey, commit_other]
  · exact (committed.assigning serving.settled).moved.frame _ (cursor_key_ne_allocator_key _ _)
  · rw [serving.named]
    exact cursor_key_ne_ledger_key _ _
  · exact fun _ _ => cursor_key_ne_entry_key _ _ _ _

theorem append_messages_appended (serving : Serving topic storage ledger log) (faults items) :
    Appended topic storage ledger log items (appendMessages faults topic items storage).1
      (appendMessages faults topic items storage).2 := by
  have reduced : appendMessages faults topic items storage =
      ((addEntriesWithPartitionAndMetadata faults ledger storage.db storage.entryLog items).result,
        { storage with
          db := (addEntriesWithPartitionAndMetadata faults ledger storage.db storage.entryLog
            items).db
          entryLog := (addEntriesWithPartitionAndMetadata faults ledger storage.db
            storage.entryLog items).entryLog
          ledgers := update storage.ledgers (managedLedgerName topic)
            (some (addEntriesWithPartitionAndMetadata faults ledger storage.db storage.entryLog
              items).ledger) }) := by
    simp [appendMessages, appendItems, topic_ledger_cached serving.cached]
  have cursors subscription : cursorState topic subscription
      (appendMessages faults topic items storage).2 = cursorState topic subscription storage :=
    cursor_state_frame (append_messages_cursor serving faults items subscription)
  rw [reduced] at cursors ⊢
  by_cases empty : items = []
  · subst empty
    have unchanged : Serving topic { storage with
        ledgers := update storage.ledgers (managedLedgerName topic) (some ledger) }
        ledger (log ++ []) := {
      cached := update_self _ _ _
      named := serving.named
      settled := by simpa using serving.settled
      persisted := serving.persisted
      located := by simpa using serving.located }
    exact {
      cursors := cursors
      refused error failed := by cases failed
      committed positions answered := by
        cases answered
        exact ⟨ledger, unchanged, StoredManagedLedgerInfo.Extends.refl _, rfl, by simp⟩ }
  rcases add_entries_cases faults ledger storage.db storage.entryLog empty with
    refused | ⟨assigned, indices, committed⟩
  · obtain ⟨error, failed⟩ := refused.failed
    exact {
      cursors := cursors
      refused _ _ := {
        cached := by
          rw [refused.ledger_eq]
          exact update_self _ _ _
        named := serving.named
        settled := serving.settled.moved refused.moved
        persisted := (refused.moved.frame _ (ledger_key_ne_allocator_key _)).trans serving.persisted
        located := serving.located.moved refused.moved }
      committed positions answered := by
        rw [failed] at answered
        cases answered }
  have assigning := committed.assigning serving.settled
  exact {
    cursors := cursors
    refused error failed := by
      rw [committed.result_eq] at failed
      cases failed
    committed positions answered := by
      rw [committed.result_eq] at answered
      cases answered
      refine ⟨_, {
        cached := update_self _ _ _
        named := ?_
        settled := committed.settled serving.settled empty
        persisted := ?_
        located := committed.located serving.settled serving.located
          (EntryLogStore.append_batch_described committed.written) }, ?_,
        assigning.partitions.length_eq, ?_⟩
      · rw [committed.ledger_eq]
        exact serving.named
      · rw [committed.db_eq, committed.ledger_eq, ← serving.named]
        exact commit_ledger_key _ _ _
      · rw [committed.ledger_eq]
        exact assigning.grown
      · intro position member
        refine ⟨assigning.fresh position member, ?_⟩
        rw [committed.ledger_eq]
        exact assigning.placed_stored member }

theorem serving_fresh (notCached : storage.ledgers (managedLedgerName topic) = none)
    (missing : storage.db (managedLedgerKey (managedLedgerName topic)) = none)
    (opened : (topicLedger topic storage).1 = .ok ledger) :
    Serving topic (topicLedger topic storage).2 ledger [] ∧
      ∀ subscription, (topicLedger topic storage).2.db (cursorKey topic subscription) =
        storage.db (cursorKey topic subscription) := by
  simp only [topicLedger, openLedger, getOrOpenLedger, notCached] at opened ⊢
  cases outcome : openWithConfig .none (managedLedgerName topic) storage.db
      storage.config with
  | error failure => simp [outcome] at opened
  | ok pair =>
    obtain ⟨other, db⟩ := pair
    simp only [outcome, Except.ok.injEq] at opened ⊢
    subst opened
    have stages := open_with_config_opened outcome
    obtain ⟨_, settled, rewritten⟩ := stages.fresh missing
    refine ⟨?_, fun subscription => rewritten.frame _
      (cursor_key_ne_allocator_key _ _) (cursor_key_ne_ledger_key _ _)⟩
    exact {
      cached := update_self _ _ _
      named := stages.name_eq
      settled := settled
      persisted := rewritten.key
      located := by simp [Located] }

section

theorem ack_message_eq (serving : Serving topic storage ledger log)
    (found : cursorState topic subscription storage = .ok state) (messageId : MessageId) :
    ackMessage topic subscription messageId storage = (.ok (), writeCursor topic subscription
      (state.withMark (cursorPosition messageId.toPosition)).encode storage) :=
  with_cursor_ok serving.cached found

/-- The state a seek leaves: a mark before the target, and no ranges. -/
def soughtState (info : StoredManagedLedgerInfo) (messageId : MessageId) : ManagedCursorState where
  markDelete := (info.previousPosition messageId.toPosition).map cursorPosition
  individuallyDeletedEntries := .empty

theorem seek_cursor_eq (serving : Serving topic storage ledger log)
    (found : cursorState topic subscription storage = .ok state) (messageId : MessageId) :
    seekCursor topic subscription messageId storage = (.ok (), writeCursor topic subscription
      (soughtState ledger.info messageId).encode storage) :=
  with_cursor_ok serving.cached found

def ackedState (topic subscription : Text) (storage : RocksDbManagedLedgerStorage)
    (ledger : RocksDBManagedLedger) (state : ManagedCursorState) (messageId : MessageId) :
    ManagedCursorState :=
  (ackManagedCursorShared (cursorWith topic subscription storage state) messageId.toPosition
    ledger.info).state

theorem ack_message_shared_eq (serving : Serving topic storage ledger log)
    (found : cursorState topic subscription storage = .ok state) (messageId : MessageId) :
    ackedState topic subscription storage ledger state messageId = state ∧
      ackMessageShared topic subscription messageId storage = (.ok (), storage) ∨
    ackMessageShared topic subscription messageId storage = (.ok (), writeCursor topic subscription
        (ackedState topic subscription storage ledger state messageId).encode storage) := by
  unfold ackMessageShared ackedState
  rw [with_cursor_ok serving.cached found]
  rcases touched_db (ack_managed_cursor_shared_touched
    (cursorWith topic subscription storage state) messageId.toPosition ledger.info) with
    ⟨same, unchanged⟩ | written
  · exact .inl ⟨same, by rw [unchanged]⟩
  · exact .inr (by rw [written])

def initialState (ledger : RocksDBManagedLedger) (options : CursorInitOptions) :
    ManagedCursorState where
  markDelete :=
    match options.startMessageId with
    | some start => (ledger.info.previousPosition start.toPosition).map cursorPosition
    | none =>
      match options.initialPosition with
      | .latest => ledger.lac.map cursorPosition
      | .earliest => none
  individuallyDeletedEntries := .empty

variable (serving : Serving topic storage ledger log)
include serving

theorem create_cursor_eq (missing : storage.db (cursorKey topic subscription) = none) (options) :
    createCursor topic subscription options storage = (.ok (), writeCursor topic subscription
      (initialState ledger options).encode storage) := by
  have found := cursor_state_missing missing
  unfold createCursor initialState
  cases options.startMessageId with
  | some start =>
    unfold applyStartMessageIdCursor
    simp only
    rw [with_cursor_ok serving.cached found]
    cases ledger.info.previousPosition start.toPosition with
    | none | some => rfl
  | none =>
    cases options.initialPosition with
    | latest =>
      unfold applyLatestCursor
      simp only
      rw [with_cursor_ok serving.cached found]
      cases ledger.lac with
      | none | some => rfl
    | earliest =>
      unfold persistEmptyCursor
      simp only
      rw [with_cursor_ok serving.cached found]
      rfl

theorem first_unacked_position_eq
    (subscription : Text) : firstUnackedPosition topic subscription storage =
      (match ledger.lac with
        | none => .ok none
        | some lac =>
          (cursorState topic subscription storage).map (firstUnackedOf ledger.info lac),
        storage) := by
  unfold firstUnackedPosition
  rw [topic_ledger_cached serving.cached]
  simp only [topic_cursor_eq]
  cases ledger.lac with
  | none => rfl
  | some lac =>
    cases cursorState topic subscription storage with
    | error | ok => rfl

theorem initialize_or_open_cursor_storage (options) :
    (initializeOrOpenCursor topic subscription options storage).2 =
      if storage.db (cursorKey topic subscription) = none then
        writeCursor topic subscription (initialState ledger options).encode storage
      else storage := by
  unfold initializeOrOpenCursor
  split_ifs with present missing missing
  · unfold cursorExists at present
    unfold cursorKey at missing
    simp [missing] at present
  · rw [first_unacked_position_eq serving subscription]
    rfl
  · rw [create_cursor_eq serving missing options]
    simp only
    rw [first_unacked_position_eq (serving.write_cursor subscription _) subscription]
    rfl
  · unfold cursorKey at missing
    exact absurd (Option.isSome_iff_ne_none.mpr missing) present

end

/-- The process ends and another one opens the directory and the topic. -/
def restart (topic : Text) (config : ManagedLedgerConfig) (storage : RocksDbManagedLedgerStorage) :
    RocksDbManagedLedgerStorage :=
  (topicLedger topic (openStorage storage.db storage.entryLog.files config)).2

theorem serving_restart (serving : Serving topic storage ledger log)
    (encodable : ledger.info.Encodable) (config) :
    (∃ next, Serving topic (restart topic config storage) next log ∧
      ledger.info.Extends next.info) ∧
      ∀ subscription, cursorState topic subscription (restart topic config storage) =
        cursorState topic subscription storage := by
  have persisted : Persisted (managedLedgerName topic) storage.db ledger.info log := {
    key := serving.persisted
    encodable := encodable
    accounts := serving.settled.accounts
    ahead := serving.settled.ahead }
  obtain ⟨next, db, opened⟩ := open_again_succeeds config persisted serving.located
  have stages := open_with_config_opened opened
  obtain ⟨settled, rewritten, grown⟩ := stages.again persisted serving.located
  have reduced : restart topic config storage = {
      db := db
      entryLog := (openStorage storage.db storage.entryLog.files config).entryLog
      config := config
      ledgers := update (fun _ => none) (managedLedgerName topic) (some next) } := by
    simp only [restart, topicLedger, openLedger, getOrOpenLedger, openStorage, opened]
  rw [reduced]
  refine ⟨⟨next, ?_, grown⟩, fun subscription => cursor_state_frame (rewritten.frame _
    (cursor_key_ne_allocator_key _ _) (cursor_key_ne_ledger_key _ _))⟩
  exact {
    cached := by simp
    named := stages.name_eq
    settled := settled
    persisted := rewritten.key
    located := serving.located.rewritten rewritten }

section

variable (topic : Text) (storage : RocksDbManagedLedgerStorage)

def Fits : Prop :=
  ∀ ledger ∈ storage.ledgers (managedLedgerName topic), ledger.info.Encodable

def StoresId (messageId : MessageId) : Prop :=
  ∃ ledger ∈ storage.ledgers (managedLedgerName topic), ledger.info.Stores messageId.toPosition

end

instance (topic : Text) (storage : RocksDbManagedLedgerStorage) : Decidable (Fits topic storage) :=
  inferInstanceAs (Decidable (∀ ledger ∈ _, _))

instance (topic : Text) (storage : RocksDbManagedLedgerStorage) (messageId : MessageId) :
    Decidable (StoresId topic storage messageId) :=
  inferInstanceAs (Decidable (∃ ledger ∈ _, _))

theorem Serving.fits (serving : Serving topic storage ledger log) :
    Fits topic storage ↔ ledger.info.Encodable := by
  simp [Fits, serving.cached]

theorem Serving.stores_id (serving : Serving topic storage ledger log) (messageId : MessageId) :
    StoresId topic storage messageId ↔ ledger.info.Stores messageId.toPosition := by
  simp [StoresId, serving.cached]

def returned (result : Except String (List ManagedLedgerPosition)) (items : List Item) :
    CommittedLog :=
  match result with
  | .ok positions => positions.zip items
  | .error _ => []

/-- The states of a topic, with its log: the topic is created in a store that
never had it; then come batches, restarts, and any values for its cursors. -/
inductive TopicHistory (topic : Text) : RocksDbManagedLedgerStorage → CommittedLog → Prop
  | created (base storage ledger) (notCached : base.ledgers (managedLedgerName topic) = none)
      (missing : base.db (managedLedgerKey (managedLedgerName topic)) = none)
      (opened : topicLedger topic base = (.ok ledger, storage)) (fits : Fits topic storage) :
      TopicHistory topic storage []
  | appended (faults items storage log) (before : TopicHistory topic storage log)
      (fits : Fits topic (appendMessages faults topic items storage).2) :
      TopicHistory topic (appendMessages faults topic items storage).2
        (log ++ returned (appendMessages faults topic items storage).1 items)
  | cursorSet (subscription value storage log) (before : TopicHistory topic storage log) :
      TopicHistory topic (setCursor topic subscription value storage) log
  | restarted (config storage log) (before : TopicHistory topic storage log)
      (fits : Fits topic (restart topic config storage)) :
      TopicHistory topic (restart topic config storage) log

theorem serving_append (serving : Serving topic storage ledger log) (faults items) :
    ∃ next, Serving topic (appendMessages faults topic items storage).2 next
        (log ++ returned (appendMessages faults topic items storage).1 items) ∧
      ledger.info.Extends next.info := by
  have appended := append_messages_appended serving faults items
  cases outcome : (appendMessages faults topic items storage).1 with
  | error error =>
    refine ⟨ledger, ?_, .refl _⟩
    rw [returned, List.append_nil]
    exact appended.refused error outcome
  | ok positions =>
    obtain ⟨next, served, grown, _⟩ := appended.committed positions outcome
    exact ⟨next, served, grown⟩

theorem TopicHistory.serving (history : TopicHistory topic storage log) :
    ∃ ledger, Serving topic storage ledger log ∧ ledger.info.Encodable := by
  induction history with
  | created base storage ledger notCached missing opened fits =>
    have served := (serving_fresh notCached missing (congrArg Prod.fst opened)).1
    rw [opened] at served
    exact ⟨ledger, served, served.fits.mp fits⟩
  | appended faults items storage log before fits ih =>
    obtain ⟨ledger, serving, _⟩ := ih
    obtain ⟨next, served, _⟩ := serving_append serving faults items
    exact ⟨next, served, served.fits.mp fits⟩
  | cursorSet subscription value storage log before ih =>
    obtain ⟨ledger, serving, encodable⟩ := ih
    exact ⟨ledger, serving.set_cursor subscription value, encodable⟩
  | restarted config storage log before fits ih =>
    obtain ⟨ledger, serving, encodable⟩ := ih
    obtain ⟨⟨next, served, _⟩, _⟩ := serving_restart serving encodable config
    exact ⟨next, served, served.fits.mp fits⟩

def sampleTopic : Text := ['t']

def sampleSubscription : Text := ['s']

def sampleMessage : Item where
  partition := 0
  metadata := [10, 1, 112, 16, 0, 24, 1]
  payload := [2, 3]

/-- A new store on which one topic has been created, with two entries to a
ledger. -/
def sampleStorage : RocksDbManagedLedgerStorage :=
  (topicLedger sampleTopic (openStorage .empty [] { maxEntriesPerLedger := some 2 })).2

theorem sample_history : TopicHistory sampleTopic sampleStorage [] :=
  .created (openStorage .empty [] { maxEntriesPerLedger := some 2 }) _ _ rfl rfl rfl (by decide)

theorem sample_no_cursors (subscription : Text) :
    sampleStorage.db (cursorKey sampleTopic subscription) = none := by
  have db : sampleStorage.db = (Db.empty.put ledgerIdAllocatorKey (.nextLedgerId 1)).put
      (managedLedgerKey (managedLedgerName sampleTopic))
      (.managedLedgerInfo (StoredManagedLedgerInfo.new 0).encode) := rfl
  rfl

def sampleId (index : Nat) : MessageId where
  ledger := index / 2
  entry := index % 2
  partition := 0

end PulsarLite.Storage.RocksDbManagedLedgerStorage
