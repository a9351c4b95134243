import PulsarLite.Storage.Footprint

/-!
# Isolation in the RocksDB backend

Whether an operation on one topic and subscription can be seen through another
pair depends on their names only. The keys are built from names that may contain
slashes, so a ledger can share its key with another ledger or with a cursor;
where no keys are shared, no answer changes.
-/

namespace PulsarLite.Storage.RocksDbManagedLedgerStorage

open Library Keys Function Except Db RocksDBManagedCursor
open ManagedCursorState (default)

variable {ledger : RocksDBManagedLedger} {after opened : RocksDbManagedLedgerStorage}
  {cursorName name key : Text}
  {change : RocksDBManagedLedger → RocksDBManagedCursor → RocksDBManagedCursor}

open RocksDBManagedLedger RocksDBManagedCursor StoredManagedLedgerInfo EntryLogStore

inductive Operation
  | createTopic
  | append (faults : AppendFaults) (items : List Item)
  | initializeOrOpenCursor (options : CursorInitOptions)
  | ackMessage (messageId : MessageId)
  | ackMessageShared (messageId : MessageId)
  | seekCursor (messageId : MessageId)
  | deleteCursor

def Operation.OnTopic : Operation → Prop
  | createTopic => True
  | append _ _ => True
  | _ => False

def Operation.Traceless : Operation → Prop
  | append faults _ => WriteFaults.Traceless faults.entryLog
  | _ => True

def perform (topic subscription : Text) (storage : RocksDbManagedLedgerStorage) :
    Operation → RocksDbManagedLedgerStorage
  | .createTopic => (createTopic topic storage).2
  | .append faults items => (appendMessages faults topic items storage).2
  | .initializeOrOpenCursor options =>
    (initializeOrOpenCursor topic subscription options storage).2
  | .ackMessage messageId => (ackMessage topic subscription messageId storage).2
  | .ackMessageShared messageId => (ackMessageShared topic subscription messageId storage).2
  | .seekCursor messageId => (seekCursor topic subscription messageId storage).2
  | .deleteCursor => deleteCursor topic subscription storage

/-- The states of a storage that began empty, with restarts at any time. -/
inductive Reachable : RocksDbManagedLedgerStorage → Prop
  | created (files config) :
      Reachable (openStorage .empty files config)
  | performed (topic subscription storage operation) (before : Reachable storage)
      (traceless : operation.Traceless)
      (fits : IdsFit (perform topic subscription storage operation).db) :
      Reachable (perform topic subscription storage operation)
  | restarted (storage config) (before : Reachable storage) :
      Reachable (openStorage storage.db storage.entryLog.files config)

variable {storage : RocksDbManagedLedgerStorage} {topic subscription : Text}

theorem first_unacked_storage (topic subscription storage) :
    (firstUnackedPosition topic subscription storage).2 = (topicLedger topic storage).2 := by
  unfold firstUnackedPosition
  generalize topicLedger topic storage = outcome
  obtain ⟨result, opened⟩ := outcome
  cases result with
  | error error => rfl
  | ok ledger =>
    dsimp only
    cases ledger.lac with
    | none => rfl
    | some lac =>
      cases topicCursor topic subscription opened with
      | error error => rfl
      | ok cursor => rfl

/-- What an operation on a subscription leaves: the ledger has been looked up,
and the cursor written if it was found. -/
inductive Leaves (topic subscription : Text) (storage : RocksDbManagedLedgerStorage) :
    RocksDbManagedLedgerStorage → Prop
  | opened : Leaves topic subscription storage (topicLedger topic storage).2
  | written (ledger opened info) (found : topicLedger topic storage = (.ok ledger, opened)) :
      Leaves topic subscription storage (writeCursor topic subscription info opened)
  | deleted : Leaves topic subscription storage (setCursor topic subscription none storage)

theorem with_cursor_leaves (topic subscription storage)
    (touches : ∀ ledger cursor, Touched cursor (change ledger cursor)) :
    ((withCursor topic subscription change storage).2 = (topicLedger topic storage).2 ∨
      ∃ ledger opened info, topicLedger topic storage = (.ok ledger, opened) ∧
        (withCursor topic subscription change storage).2 =
          writeCursor topic subscription info opened) ∧
      ((∃ error, (withCursor topic subscription change storage).1 = .error error) ∨
        ∃ ledger opened, topicLedger topic storage = (.ok ledger, opened)) := by
  unfold withCursor
  cases found : topicLedger topic storage with
  | mk result opened =>
    cases result with
    | error error => exact ⟨.inl rfl, .inl ⟨error, rfl⟩⟩
    | ok ledger =>
      refine ⟨?_, .inr ⟨ledger, opened, rfl⟩⟩
      simp only
      rw [topic_cursor_eq]
      cases read : cursorState topic subscription opened with
      | error error => exact .inl rfl
      | ok state =>
        rcases touched_db (touches ledger (cursorWith topic subscription opened state)) with
          ⟨_, same⟩ | written
        · exact .inl same
        · exact .inr ⟨ledger, opened, _, rfl, written⟩

theorem with_cursor_leaves_storage (topic subscription storage)
    (touches : ∀ ledger cursor, Touched cursor (change ledger cursor)) :
    Leaves topic subscription storage (withCursor topic subscription change storage).2 := by
  obtain same | ⟨ledger, opened, info, found, written⟩ :=
    (with_cursor_leaves topic subscription storage touches).1
  · rw [same]
    exact .opened
  · rw [written]
    exact .written ledger opened info found

theorem create_cursor_with (topic subscription options) :
    ∃ change : RocksDBManagedLedger → RocksDBManagedCursor → RocksDBManagedCursor,
      (∀ ledger cursor, Touched cursor (change ledger cursor)) ∧
        createCursor topic subscription options = withCursor topic subscription change := by
  unfold createCursor
  cases options.startMessageId with
  | some start =>
    refine ⟨_, ?_, rfl⟩
    intro ledger cursor
    cases ledger.info.previousPosition start.toPosition with
    | none => exact touched_stored cursor cursor.state
    | some previous => exact touched_stored _ _
  | none =>
    cases options.initialPosition with
    | latest =>
      refine ⟨_, ?_, rfl⟩
      intro ledger cursor
      cases ledger.lac with
      | none => exact touched_stored cursor cursor.state
      | some last => exact touched_stored _ _
    | earliest => exact ⟨_, fun _ cursor => touched_stored cursor cursor.state, rfl⟩

section

variable (found : topicLedger topic storage = (.ok ledger, opened))
include found

theorem topic_ledger_written (value) :
    topicLedger topic (setCursor topic subscription value opened) =
      (.ok ledger, setCursor topic subscription value opened) := by
  have cached := topic_ledger_in_cache found
  exact topic_ledger_cached cached

theorem topic_ledger_opened : topicLedger topic opened = (.ok ledger, opened) :=
  topic_ledger_cached (topic_ledger_in_cache found)

end

theorem initialize_or_open_cursor_leaves (topic subscription options storage) :
    Leaves topic subscription storage
      (initializeOrOpenCursor topic subscription options storage).2 := by
  unfold initializeOrOpenCursor
  split_ifs
  · show Leaves topic subscription storage (firstUnackedPosition topic subscription storage).2
    rw [first_unacked_storage]
    exact .opened
  obtain ⟨change, touches, same⟩ := create_cursor_with topic subscription options
  have left := with_cursor_leaves_storage topic subscription storage touches
  have stages := with_cursor_leaves topic subscription storage touches
  rw [same]
  cases outcome : withCursor topic subscription change storage with
  | mk result after =>
    rw [outcome] at left stages
    cases result with
    | error error => exact left
    | ok done =>
      show Leaves topic subscription storage (firstUnackedPosition topic subscription after).2
      rw [first_unacked_storage]
      obtain ⟨error, impossible⟩ | ⟨ledger, opened, found⟩ := stages.2
      · cases impossible
      obtain same | ⟨_, _, info, again, written⟩ := stages.1
      · simp only at same
        rw [same, found, topic_ledger_opened found, ← congrArg Prod.snd found]
        exact .opened
      simp only at written
      rw [written]
      rw [found] at again
      cases again
      unfold writeCursor
      rw [topic_ledger_written found]
      exact .written ledger opened info found

variable {operation : Operation}

theorem perform_leaves (notTopic : ¬ operation.OnTopic) (topic subscription : Text) (storage) :
    Leaves topic subscription storage (perform topic subscription storage operation) := by
  cases operation with
  | createTopic | append => exact absurd trivial notTopic
  | initializeOrOpenCursor options =>
    exact initialize_or_open_cursor_leaves topic subscription options storage
  | ackMessage messageId =>
    exact with_cursor_leaves_storage topic subscription storage fun _ _ => touched_stored _ _
  | ackMessageShared messageId =>
    exact with_cursor_leaves_storage topic subscription storage fun _ _ =>
      ack_managed_cursor_shared_touched _ _ _
  | seekCursor messageId =>
    exact with_cursor_leaves_storage topic subscription storage fun _ _ => touched_stored _ _
  | deleteCursor => exact .deleted

theorem not_ledger_none : NotLedger none := by
  intro info impossible
  cases impossible

theorem not_ledger_cursor (info) : NotLedger (some (.managedCursorInfo info)) := by
  intro ledgerInfo impossible
  cases impossible

theorem Leaves.confined (housed : Housed storage)
    (leaves : Leaves topic subscription storage after) :
    Confined (Owns storage (managedLedgerName topic)) (managedLedgerName topic)
      (encodeCursorName subscription) storage after := by
  cases leaves with
  | opened => exact topic_ledger_confined housed topic _
  | written ledger opened info found =>
    have first := topic_ledger_confined housed topic (encodeCursorName subscription)
    rw [found] at first
    exact first.trans (set_cursor_confined topic subscription (not_ledger_cursor info) opened)
      fun _ reaches => first.reaches reaches
  | deleted => exact (set_cursor_confined topic subscription not_ledger_none storage).of_reaches

theorem IdsFit.before {owned : Nat → Prop} (fits : IdsFit after.db)
    (confined : Confined owned name cursorName storage after) :
    IdsFit storage.db := by
  intro next found
  obtain ⟨later, laterFound, above⟩ := confined.counter next found
  exact above.trans (fits later laterFound)

theorem Leaves.housed (housed : Housed storage) (leaves : Leaves topic subscription storage after)
    (fits : IdsFit after.db) : Housed after := by
  cases leaves with
  | opened => exact topic_ledger_housed housed topic fits
  | written ledger opened info found =>
    have before := fits.before
      (set_cursor_confined topic subscription (not_ledger_cursor info) opened)
    have first := topic_ledger_housed housed topic
    rw [found] at first
    exact (first before).set_cursor topic subscription (not_ledger_cursor info)
  | deleted => exact housed.set_cursor topic subscription not_ledger_none

theorem append_messages_cases (faults topic items storage) :
    (appendMessages faults topic items storage).2 = (topicLedger topic storage).2 ∨
    ∃ ledger opened, topicLedger topic storage = (.ok ledger, opened) ∧
      (appendMessages faults topic items storage).2 =
        (appendItems faults (managedLedgerName topic) ledger items opened).2 := by
  unfold appendMessages
  cases found : topicLedger topic storage with
  | mk result opened =>
    cases result with
    | error error => exact .inl rfl
    | ok ledger => exact .inr ⟨ledger, opened, rfl, rfl⟩

section

variable (housed : Housed storage)
include housed

theorem perform_topic_confined (onTopic : operation.OnTopic) (cursorName : Text) :
    Confined (Owns storage (managedLedgerName topic)) (managedLedgerName topic)
      cursorName storage (perform topic subscription storage operation) := by
  have first := topic_ledger_confined housed topic cursorName
  cases operation with
  | createTopic => exact first
  | append faults items =>
    show Confined _ _ _ storage (appendMessages faults topic items storage).2
    obtain same | ⟨ledger, opened, found, same⟩ := append_messages_cases faults topic items storage
    · rw [same]
      exact first
    · rw [same]
      rw [found] at first
      exact first.trans (append_items_confined (topic_ledger_standing housed found) cursorName
        faults items) fun _ reaches => first.reaches reaches
  | initializeOrOpenCursor | ackMessage | ackMessageShared | seekCursor | deleteCursor =>
    exact absurd onTopic id

theorem perform_confined (topic subscription : Text) (operation : Operation) :
    Confined (Owns storage (managedLedgerName topic)) (managedLedgerName topic)
      (encodeCursorName subscription) storage
      (perform topic subscription storage operation) := by
  by_cases onTopic : operation.OnTopic
  · exact perform_topic_confined housed onTopic _
  · exact (perform_leaves onTopic topic subscription storage).confined housed

theorem perform_housed (topic subscription : Text) (traceless : operation.Traceless)
    (fits : IdsFit (perform topic subscription storage operation).db) :
    Housed (perform topic subscription storage operation) := by
  by_cases onTopic : operation.OnTopic
  · cases operation with
    | createTopic => exact topic_ledger_housed housed topic fits
    | append faults items =>
      change IdsFit (appendMessages faults topic items storage).2.db at fits
      show Housed (appendMessages faults topic items storage).2
      rcases append_messages_cases faults topic items storage with
        same | ⟨ledger, opened, found, same⟩
      · rw [same] at fits ⊢
        exact topic_ledger_housed housed topic fits
      rw [same] at fits ⊢
      have before := fits.before (append_items_confined (topic_ledger_standing housed found) []
        faults items)
      have first := topic_ledger_housed housed topic
      rw [found] at first
      exact append_items_housed (first before) (topic_ledger_in_cache found) traceless items fits
    | initializeOrOpenCursor | ackMessage | ackMessageShared | seekCursor | deleteCursor =>
      exact absurd onTopic id
  · exact (perform_leaves onTopic topic subscription storage).housed housed fits

end

theorem reachable_housed (reachable : Reachable storage) : Housed storage := by
  induction reachable with
  | created files config => exact housed_created files config
  | performed topic subscription storage operation before traceless fits ih =>
    exact perform_housed ih topic subscription traceless fits
  | restarted storage config before ih => exact ih.restart config

variable {left right : RocksDbManagedLedgerStorage}

theorem read_entry_record_frame {leftDb rightDb : Db} {entryLog} {ledgerId entryId : Nat}
    (same : leftDb (managedEntryKey ledgerId entryId) =
      rightDb (managedEntryKey ledgerId entryId)) :
    readEntryRecord leftDb entryLog ledgerId entryId =
      readEntryRecord rightDb entryLog ledgerId entryId := by
  unfold readEntryRecord loadEntryIndex
  rw [same]

theorem read_entry_record_grown {db : Db} {old new} (held : Held db old)
    (grown : Files.Extends old.files new.files) (ledgerId entryId : Nat) :
    readEntryRecord db new ledgerId entryId = readEntryRecord db old ledgerId entryId := by
  unfold readEntryRecord loadEntryIndex
  cases found : db (managedEntryKey ledgerId entryId) with
  | none => rfl
  | some value =>
    obtain ⟨index, entry, rfl, ids, entries, holds⟩ := held _ _ _ found
    have same : ({
        ledgerId := ledgerId
        entryId := entryId
        fileId := (locationOf index).fileId
        offset := (locationOf index).offset
        len := (locationOf index).len
        checksum := (locationOf index).checksum
        partition := (locationOf index).partition } : EntryIndex) = index := by
      rw [← ids, ← entries]
      rfl
    simp only [same, bind, Except.bind, holds.read_eq, (holds.extends grown).read_eq]

def Ahead (name : Text) (storage : RocksDbManagedLedgerStorage) : Prop :=
  ∃ next, nextLedgerId storage.db = .ok next ∧
    ∀ stored, storedInfo (storage.db (managedLedgerKey name)) = .ok stored →
      ∀ id, stored.Knows id → id < next

theorem Housed.ahead (housed : Housed storage) (name : Text) : Ahead name storage := by
  obtain ⟨next, found, _⟩ := housed.counted
  exact ⟨next, found, fun _ read => housed.view_below name found read⟩

theorem ask_of_view (leftAhead : Ahead (managedLedgerName topic) left)
    (rightAhead : Ahead (managedLedgerName topic) right)
    (view : viewed (managedLedgerName topic) left = viewed (managedLedgerName topic) right)
    (cursor : left.db (cursorKey topic subscription) = right.db (cursorKey topic subscription))
    (fetched : ∀ info lac, viewed (managedLedgerName topic) left = .ok (info, lac) →
      FetchAlike info left.db left.entryLog right.db right.entryLog) (query : Query) :
    ask topic subscription left query = ask topic subscription right query := by
  obtain ⟨leftNext, leftFound, leftBelow⟩ := leftAhead
  obtain ⟨rightNext, rightFound, rightBelow⟩ := rightAhead
  rcases topic_ledger_shows rightFound rightBelow with
    ⟨rightError, rightOpened, rightResult, rightView⟩ |
      ⟨rightInfo, rightLedger, rightOpened, rightResult, rightShows⟩ <;>
  rcases topic_ledger_shows leftFound leftBelow with
    ⟨leftError, leftOpened, leftResult, leftView⟩ |
      ⟨leftInfo, leftLedger, leftOpened, leftResult, leftShows⟩
  · rw [leftView, rightView] at view
    cases view
    exact ask_error leftResult rightResult query
  · rw [leftShows.view, rightView] at view
    cases view
  · rw [leftView, rightShows.view] at view
    cases view
  have fetch := fetched leftInfo leftLedger.lac leftShows.view
  rw [leftShows.view, rightShows.view] at view
  simp only [ok.injEq, Prod.mk.injEq] at view
  have infos := leftShows.alike
  rw [view.1] at infos fetch
  apply ask_alike leftResult rightResult view.2 (infos.symm.trans rightShows.alike)
  · apply cursor_state_frame
    have leftKey := leftShows.frame _ (cursor_key_ne_allocator_key _
      (encodeCursorName subscription)) (cursor_key_ne_ledger_key _ _)
    have rightKey := rightShows.frame _ (cursor_key_ne_allocator_key _
      (encodeCursorName subscription)) (cursor_key_ne_ledger_key _ _)
    exact (leftKey.trans cursor).trans rightKey.symm
  have opened : FetchAlike rightInfo leftOpened.db leftOpened.entryLog rightOpened.db
      rightOpened.entryLog := by
    intro position stores
    rw [leftShows.entryLog, rightShows.entryLog,
      read_entry_record_frame (leftShows.frame _ (entry_key_ne_allocator_key _ _)
        (ledger_key_ne_entry_key _ _ _).symm),
      read_entry_record_frame (rightShows.frame _ (entry_key_ne_allocator_key _ _)
        (ledger_key_ne_entry_key _ _ _).symm)]
    exact fetch position stores
  exact opened.alike infos

theorem viewed_uses {info lac} (view : viewed name storage = .ok (info, lac)) {id : Nat}
    (known : info.Knows id) : Uses storage name id := by
  unfold viewed at view
  cases cached : storage.ledgers name with
  | some ledger =>
    simp only [cached, ok.injEq, Prod.mk.injEq] at view
    rw [← view.1] at known
    exact .inl ⟨ledger, cached, known⟩
  | none =>
    simp only [cached] at view
    obtain ⟨found, read, rest⟩ := bind_eq_ok.mp view
    obtain ⟨last, _, result⟩ := bind_eq_ok.mp rest
    cases ok.inj result
    exact .inr ⟨_, read, known⟩

theorem viewed_frame (ledgers : after.ledgers name = storage.ledgers name)
    (key : after.db (managedLedgerKey name) = storage.db (managedLedgerKey name))
    (entries : ∀ ledgerId entryId, Uses storage name ledgerId →
      after.db (managedEntryKey ledgerId entryId) = storage.db (managedEntryKey ledgerId entryId)) :
    viewed name after = viewed name storage := by
  unfold viewed
  rw [ledgers, key]
  cases cached : storage.ledgers name with
  | some ledger => rfl
  | none =>
    cases read : storedInfo (storage.db (managedLedgerKey name)) with
    | error error => rfl
    | ok stored =>
      have lac : lacFromInfoAndDb stored after.db = lacFromInfoAndDb stored storage.db := by
        apply lac_frame
        intro ledgerId entryId known
        exact entries ledgerId entryId (.inr ⟨stored, read, known⟩)
      simp only [bind, Except.bind, lac]

theorem Confined.ask_eq (housed : Housed storage)
    (confined : Confined (Owns storage name) name cursorName storage after)
    (names : managedLedgerName topic ≠ name)
    (ledgerKey : managedLedgerKey (managedLedgerName topic) ≠ managedCursorKey name cursorName)
    (cursorLedger : cursorKey topic subscription ≠ managedLedgerKey name)
    (cursors : cursorKey topic subscription ≠ managedCursorKey name cursorName) (query : Query) :
    ask topic subscription after query = ask topic subscription storage query := by
  have key : after.db (managedLedgerKey (managedLedgerName topic)) =
      storage.db (managedLedgerKey (managedLedgerName topic)) :=
    confined.keys _ (ledger_key_ne_allocator_key _)
      (fun same => names (managed_ledger_key_inj same)) ledgerKey
      fun _ _ => ledger_key_ne_entry_key _ _ _
  have entries ledgerId entryId : Uses storage (managedLedgerName topic) ledgerId →
      after.db (managedEntryKey ledgerId entryId) =
        storage.db (managedEntryKey ledgerId entryId) := by
    intro uses
    obtain owns | same := confined.entries ledgerId entryId
    · exact absurd (housed.owner owns uses).symm names
    · exact same
  have view := viewed_frame (confined.ledgers _ names) key entries
  have ahead : Ahead (managedLedgerName topic) after := by
    obtain ⟨next, found, below⟩ := housed.ahead (managedLedgerName topic)
    obtain ⟨later, laterFound, above⟩ := confined.counter next found
    refine ⟨later, laterFound, ?_⟩
    rw [key]
    exact fun stored read id known => (below stored read id known).trans_le above
  apply ask_of_view ahead (housed.ahead _) view
  · exact confined.keys _ (cursor_key_ne_allocator_key _ _) cursorLedger cursors
      fun _ _ => cursor_key_ne_entry_key _ _ _ _
  · intro info lac seen position stores
    rw [view] at seen
    rw [read_entry_record_frame (entries _ _ (viewed_uses seen stores.knows))]
    exact read_entry_record_grown housed.held confined.files _ _

theorem Leaves.ask_eq {other : Text} (housed : Housed storage)
    (leaves : Leaves topic subscription storage after)
    (cursors : cursorKey topic other ≠ cursorKey topic subscription) (query : Query) :
    ask topic other after query = ask topic other storage query := by
  cases leaves with
  | opened =>
    cases found : topicLedger topic storage with
    | mk result opened =>
      cases result with
      | error error =>
        obtain same | ⟨ledger, impossible, _⟩ := topic_ledger_cases housed topic
        · rw [found] at same
          rw [show opened = storage from same]
        · rw [found] at impossible
          cases impossible
      | ok ledger =>
        exact ask_alike (topic_ledger_opened found) found rfl (Alike.refl _) rfl
          (fun _ _ => rfl) query
  | written ledger opened info found =>
    apply ask_alike (topic_ledger_written found _) found rfl (Alike.refl _)
    · exact cursor_state_frame (set_cursor_frame _ _ _ _ cursors)
    · intro position _
      exact read_entry_record_frame (set_cursor_frame topic subscription _ opened
        (cursor_key_ne_entry_key _ _ _ _).symm)
  | deleted =>
    have key := set_cursor_frame topic subscription none storage
      (cursor_key_ne_ledger_key (managedLedgerName topic) (encodeCursorName subscription)).symm
    have entries ledgerId entryId :
        (setCursor topic subscription none storage).db (managedEntryKey ledgerId entryId) =
          storage.db (managedEntryKey ledgerId entryId) := by
      apply set_cursor_frame
      exact (cursor_key_ne_entry_key _ _ _ _).symm
    apply ask_of_view ((housed.set_cursor topic subscription not_ledger_none).ahead _)
      (housed.ahead _) (viewed_frame rfl key fun ledgerId entryId _ => entries ledgerId entryId)
    · exact set_cursor_frame _ _ _ _ cursors
    · intro info lac _ position _
      exact read_entry_record_frame (entries _ _)

variable {other otherSubscription : Text}

/-- No operation on a topic and subscription is seen through the other pair. The
operations on the topic itself are meant to be seen by all its subscriptions. -/
def Isolated (topic subscription other otherSubscription : Text) : Prop :=
  ∀ storage, Reachable storage → ∀ operation : Operation,
    (operation.OnTopic → topic ≠ other) → ∀ query : Query,
      ask other otherSubscription (perform topic subscription storage operation) query =
        ask other otherSubscription storage query

def ledgerKey (topic : Text) : Text := managedLedgerKey (managedLedgerName topic)

/-- The ledger keys and cursor keys of two pairs are distinct. -/
structure KeysApart (topic subscription other otherSubscription : Text) : Prop where
  ledgers : topic ≠ other → ledgerKey topic ≠ ledgerKey other
  cursors : cursorKey topic subscription ≠ cursorKey other otherSubscription
  cursorLedger : cursorKey topic subscription ≠ ledgerKey other
  ledgerCursor : ledgerKey topic ≠ cursorKey other otherSubscription

theorem isolated_of_apart (apart : KeysApart topic subscription other otherSubscription) :
    Isolated topic subscription other otherSubscription := by
  intro storage reachable operation onTopic query
  have housed := reachable_housed reachable
  by_cases same : topic = other
  · subst same
    have notTopic : ¬ operation.OnTopic := fun holds => onTopic holds rfl
    exact (perform_leaves notTopic topic subscription storage).ask_eq housed
      apart.cursors.symm query
  apply (perform_confined housed topic subscription operation).ask_eq housed
  · intro names
    apply apart.ledgers same
    unfold ledgerKey
    rw [names]
  · exact apart.cursorLedger.symm
  · exact apart.ledgerCursor.symm
  · exact apart.cursors.symm

def emptyStorage : RocksDbManagedLedgerStorage :=
  openStorage .empty [] { maxEntriesPerLedger := some 2 }

theorem empty_reachable : Reachable emptyStorage := .created [] { maxEntriesPerLedger := some 2 }

def emptyLedger (topic : Text) : RocksDBManagedLedger where
  name := managedLedgerName topic
  maxEntriesPerLedger := 2
  info := .new 0
  lac := none
  runtime := { currentLedgerId := 0, currentLedgerEntries := 0, currentLedgerSize := 0 }

def openedStorage (topic : Text) : RocksDbManagedLedgerStorage :=
  { emptyStorage with
    db := (Db.empty.put ledgerIdAllocatorKey (.nextLedgerId 1)).put (ledgerKey topic)
      (.managedLedgerInfo (StoredManagedLedgerInfo.new 0).encode)
    ledgers := update emptyStorage.ledgers (managedLedgerName topic)
      (some (emptyLedger topic)) }

theorem topic_ledger_empty (topic : Text) :
    topicLedger topic emptyStorage = (.ok (emptyLedger topic), openedStorage topic) := rfl

theorem opened_other_key (notAllocator : key ≠ ledgerIdAllocatorKey)
    (notLedger : key ≠ ledgerKey topic) : (openedStorage topic).db key = none := by
  show ((Db.empty.put _ _).put _ _) key = none
  rw [put_of_ne notLedger, put_of_ne notAllocator]
  rfl

theorem backlog_without_cursor {storage} (found : topicLedger topic storage = (.ok ledger, opened))
    (missing : opened.db (cursorKey topic subscription) = none) :
    ask topic subscription storage .backlogEntries =
      .backlog (some (ledger.info.totalEntries % u64Modulus)) := by
  simp only [ask, backlogEntries, readCursor, found, topic_cursor_eq, cursor_state_missing missing]
  rfl

theorem backlog_empty (topic subscription : Text) :
    ask topic subscription emptyStorage .backlogEntries = .backlog (some 0) := by
  rw [backlog_without_cursor (topic_ledger_empty topic)]
  · rfl
  · exact opened_other_key (cursor_key_ne_allocator_key _ _) (cursor_key_ne_ledger_key _ _)

def filledLedger (topic : Text) : RocksDBManagedLedger :=
  { emptyLedger topic with
    info := { ledgers := [{ ledgerId := 0, entries := 1, size := 9 }] }
    lac := some { ledgerId := 0, entryId := 0, partition := 0 }
    runtime := { currentLedgerId := 0, currentLedgerEntries := 1, currentLedgerSize := 9 } }

def filledStorage (topic : Text) (location : StoredEntryLocation) (entryLog : EntryLogStore) :
    RocksDbManagedLedgerStorage :=
  { openedStorage topic with
    db := ((openedStorage topic).db.put (managedEntryKey 0 0) (.entryLocation location)).put
      (ledgerKey topic) (.managedLedgerInfo (filledLedger topic).info.encode)
    entryLog := entryLog
    ledgers := update (openedStorage topic).ledgers (managedLedgerName topic)
      (some (filledLedger topic)) }

theorem append_to_empty (topic : Text) : ∃ location entryLog,
    (appendMessages AppendFaults.none topic [sampleMessage] emptyStorage).2 =
      filledStorage topic location entryLog :=
  ⟨_, _, rfl⟩

/-- Two topics with one ledger: a message of one is in the backlog of the other. -/
theorem not_isolated_of_ledgers (different : topic ≠ other)
    (same : ledgerKey topic = ledgerKey other) :
    ¬ Isolated topic subscription other otherSubscription := by
  intro isolated
  have names : managedLedgerName topic = managedLedgerName other := managed_ledger_key_inj same
  have kept := isolated emptyStorage empty_reachable
    (.append AppendFaults.none [sampleMessage]) (fun _ => different) .backlogEntries
  obtain ⟨location, entryLog, appended⟩ := append_to_empty topic
  simp only [perform] at kept
  rw [appended, backlog_empty] at kept
  have cached : (filledStorage topic location entryLog).ledgers (managedLedgerName other) =
      some (filledLedger topic) := by
    rw [← names]
    exact update_self _ _ _
  have missing : (filledStorage topic location entryLog).db (cursorKey other otherSubscription) =
      none := by
    have notLedger : cursorKey other otherSubscription ≠ ledgerKey topic := by
      rw [same]
      exact cursor_key_ne_ledger_key _ _
    show (((openedStorage topic).db.put _ _).put _ _) _ = none
    rw [put_of_ne notLedger]
    have notEntry : cursorKey other otherSubscription ≠ managedEntryKey 0 0 :=
      cursor_key_ne_entry_key _ _ _ _
    rw [put_of_ne notEntry]
    exact opened_other_key (cursor_key_ne_allocator_key _ _) notLedger
  rw [backlog_without_cursor (topic_ledger_cached cached) missing] at kept
  have counts : (filledLedger topic).info.totalEntries % u64Modulus = 0 :=
    Option.some.inj (Answer.backlog.inj kept)
  exact absurd counts (show ¬ 1 % u64Modulus = 0 by decide)

/-- The cursor of one topic under the ledger key of the other, which is then not
opened any more. -/
theorem not_isolated_of_cursor (different : ledgerKey topic ≠ ledgerKey other)
    (same : cursorKey topic subscription = ledgerKey other) :
    ¬ Isolated topic subscription other otherSubscription := by
  intro isolated
  have kept := isolated emptyStorage empty_reachable
    (.ackMessage (sampleId 0)) (fun impossible => impossible.elim) .backlogEntries
  have missing : (openedStorage topic).db (cursorKey topic subscription) = none :=
    opened_other_key (cursor_key_ne_allocator_key _ _) (cursor_key_ne_ledger_key _ _)
  have names : managedLedgerName other ≠ managedLedgerName topic := by
    intro equal
    apply different
    unfold ledgerKey
    rw [equal]
  have acked : perform topic subscription emptyStorage (.ackMessage (sampleId 0)) =
      writeCursor topic subscription (markDelete
        (cursorWith topic subscription (openedStorage topic) default)
        (sampleId 0).toPosition).state.encode (openedStorage topic) := by
    simp only [perform, ackMessage, withCursor, topic_ledger_empty, topic_cursor_eq,
      cursor_state_missing missing]
    rfl
  rw [acked, backlog_empty] at kept
  generalize (markDelete (cursorWith topic subscription (openedStorage topic)
    default) (sampleId 0).toPosition).state.encode = info at kept
  have closed : (writeCursor topic subscription info (openedStorage topic)).ledgers
      (managedLedgerName other) = none := by
    show update emptyStorage.ledgers _ _ _ = none
    rw [update_of_ne names]
    rfl
  have taken : (writeCursor topic subscription info (openedStorage topic)).db
      (managedLedgerKey (managedLedgerName other)) = some (.managedCursorInfo info) := by
    show (writeCursor topic subscription info (openedStorage topic)).db (ledgerKey other) = _
    rw [← same]
    exact update_self _ _ _
  have unread : storedInfo ((writeCursor topic subscription info (openedStorage topic)).db
      (managedLedgerKey (managedLedgerName other))) =
      .error "failed to decode Protobuf message" := by
    rw [taken]
    rfl
  have failed := open_quiet_error
    (writeCursor topic subscription info (openedStorage topic)).config unread
  simp [ask, backlogEntries, readCursor, topicLedger, openLedger, getOrOpenLedger, closed, failed,
    Except.toOption] at kept

/-- The ledger of one topic under the key of the other's cursor, which is then
not read any more. -/
theorem not_isolated_of_ledger (different : ledgerKey topic ≠ ledgerKey other)
    (same : ledgerKey topic = cursorKey other otherSubscription) :
    ¬ Isolated topic subscription other otherSubscription := by
  intro isolated
  have topics : topic ≠ other := by
    intro equal
    exact different (congrArg ledgerKey equal)
  have kept := isolated emptyStorage empty_reachable .createTopic (fun _ => topics) .backlogEntries
  have created : perform topic subscription emptyStorage .createTopic = openedStorage topic := rfl
  rw [created, backlog_empty] at kept
  have counter : nextLedgerId (openedStorage topic).db = .ok 1 := by
    have allocator : (openedStorage topic).db ledgerIdAllocatorKey = some (.nextLedgerId 1) := by
      unfold openedStorage ledgerKey
      simp only
      rw [put_of_ne (ledger_key_ne_allocator_key _).symm, put_self]
    simp [nextLedgerId, allocator]
  have fresh : (openedStorage topic).db (managedLedgerKey (managedLedgerName other)) =
      none :=
    opened_other_key (ledger_key_ne_allocator_key _) different.symm
  have below stored : storedInfo ((openedStorage topic).db
      (managedLedgerKey (managedLedgerName other))) = .ok stored →
      ∀ id, stored.Knows id → id < 1 := by
    intro read id known
    rw [fresh] at read
    cases ok.inj read
    obtain ⟨ledger, impossible, _⟩ := known
    cases impossible
  rcases topic_ledger_shows counter below with
    ⟨error, opened, failed, _⟩ | ⟨info, ledger, opened, found, shows⟩
  · simp [ask, backlogEntries, readCursor, failed, Except.toOption] at kept
  have taken : opened.db (cursorKey other otherSubscription) =
      some (.managedLedgerInfo (StoredManagedLedgerInfo.new 0).encode) := by
    have frame := shows.frame _ (cursor_key_ne_allocator_key _
      (encodeCursorName otherSubscription)) (cursor_key_ne_ledger_key _ _)
    apply frame.trans
    show (openedStorage topic).db (cursorKey other otherSubscription) = _
    rw [← same]
    exact put_self _ _ _
  have unread : cursorState other otherSubscription opened =
      .error "failed to decode Protobuf message" := by
    unfold cursorState readState
    unfold cursorKey at taken
    rw [taken]
  simp [ask, backlogEntries, readCursor, found, topic_cursor_eq, unread, Except.map,
    Except.toOption] at kept

theorem isolated_iff (different : (topic, subscription) ≠ (other, otherSubscription)) :
    Isolated topic subscription other otherSubscription ↔
      KeysApart topic subscription other otherSubscription := by
  constructor
  · intro isolated
    have ledgers : topic ≠ other → ledgerKey topic ≠ ledgerKey other :=
      fun topics same => not_isolated_of_ledgers topics same isolated
    exact {
      ledgers := ledgers
      cursors same := by
        obtain ⟨names, subscriptions⟩ := cursor_key_inj same
        by_cases topics : topic = other
        · exact different (by rw [topics, subscriptions])
        · exact ledgers topics (congrArg managedLedgerKey names)
      cursorLedger same := by
        by_cases topics : topic = other
        · subst topics
          exact cursor_key_ne_ledger_key _ _ same
        · exact not_isolated_of_cursor (ledgers topics) same isolated
      ledgerCursor same := by
        by_cases topics : topic = other
        · subst topics
          exact cursor_key_ne_ledger_key _ _ same.symm
        · exact not_isolated_of_ledger (ledgers topics) same isolated }
  · exact isolated_of_apart

end PulsarLite.Storage.RocksDbManagedLedgerStorage
