import PulsarLite.Storage.CursorFrontier
import PulsarLite.Storage.LedgerRead
import PulsarLite.Storage.Opening

/-!
# The RocksDB storage

The operations the broker calls. Each one opens the ledger of its topic through
the factory's cache, opens the cursor of its subscription from RocksDB, and runs
under one lock, so it is a function from one state of the storage to the next.
-/

namespace PulsarLite.Storage

open Library Keys EntryLogStore

/-- The factory opens ledgers with one configuration, which is the default one
in the broker and a smaller one in its tests. -/
structure RocksDbManagedLedgerStorage where
  db : Db
  entryLog : EntryLogStore
  ledgers : Text → Option RocksDBManagedLedger
  config : ManagedLedgerConfig

inductive InitialPosition
  | latest
  | earliest
deriving DecidableEq

structure CursorInitOptions where
  initialPosition : InitialPosition
  startMessageId : Option MessageId
deriving DecidableEq

structure CursorOpenResult where
  created : Bool
  firstUnacked : Option ManagedLedgerPosition
deriving DecidableEq

namespace RocksDbManagedLedgerStorage

open RocksDBManagedLedger RocksDBManagedCursor

def openStorage (db : Db) (files : Files) (config : ManagedLedgerConfig) :
    RocksDbManagedLedgerStorage where
  db := db
  entryLog := openWithLimit files defaultLogSizeLimit
  ledgers := fun _ => none
  config := config

/-- `get_or_open_ledger_with_config`: the ledger of the cache, or one opened now. -/
def getOrOpenLedger (faults : OpenFaults) (name : Text) (storage : RocksDbManagedLedgerStorage) :
    Except String RocksDBManagedLedger × RocksDbManagedLedgerStorage :=
  match storage.ledgers name with
  | some ledger => (.ok ledger, storage)
  | none =>
    match openWithConfig faults name storage.db storage.config with
    | .error (error, db) => (.error error, { storage with db := db })
    | .ok (ledger, db) => (.ok ledger, { storage with
        db := db
        ledgers := Function.update storage.ledgers name (some ledger) })

def openLedger (name : Text) (storage : RocksDbManagedLedgerStorage) :
    Except String RocksDBManagedLedger × RocksDbManagedLedgerStorage :=
  getOrOpenLedger .none name storage

def topicLedger (topic : Text) (storage : RocksDbManagedLedgerStorage) :
    Except String RocksDBManagedLedger × RocksDbManagedLedgerStorage :=
  openLedger (managedLedgerName topic) storage

variable (topic subscription : Text) (storage : RocksDbManagedLedgerStorage)

/-- The cursor of a subscription, once the ledger of its topic is open. -/
def topicCursor : Except String RocksDBManagedCursor :=
  openCursor (managedLedgerName topic) (encodeCursorName subscription) storage.db

/-- The common shape of the operations that write a cursor. -/
def withCursor (change : RocksDBManagedLedger → RocksDBManagedCursor → RocksDBManagedCursor)
    (storage : RocksDbManagedLedgerStorage) :
    Except String Unit × RocksDbManagedLedgerStorage :=
  match topicLedger topic storage with
  | (.error error, storage) => (.error error, storage)
  | (.ok ledger, storage) =>
    match topicCursor topic subscription storage with
    | .error error => (.error error, storage)
    | .ok cursor => (.ok (), { storage with db := (change ledger cursor).db })

/-- The common shape of the operations that read a cursor. -/
def readCursor {α : Type} (topic subscription : Text)
    (answer : RocksDBManagedLedger → RocksDBManagedCursor → α)
    (storage : RocksDbManagedLedgerStorage) : Except String α × RocksDbManagedLedgerStorage :=
  match topicLedger topic storage with
  | (.error error, storage) => (.error error, storage)
  | (.ok ledger, storage) =>
    match topicCursor topic subscription storage with
    | .error error => (.error error, storage)
    | .ok cursor => (.ok (answer ledger cursor), storage)

variable (messageId : MessageId)

def ackMessage : RocksDbManagedLedgerStorage → Except String Unit × RocksDbManagedLedgerStorage :=
  withCursor topic subscription fun _ cursor => cursor.markDelete messageId.toPosition

def ackMessageShared :
    RocksDbManagedLedgerStorage → Except String Unit × RocksDbManagedLedgerStorage :=
  withCursor topic subscription fun ledger cursor =>
    ackManagedCursorShared cursor messageId.toPosition ledger.info

def seekCursor : RocksDbManagedLedgerStorage → Except String Unit × RocksDbManagedLedgerStorage :=
  withCursor topic subscription fun ledger cursor =>
    cursor.resetCursor (ledger.info.previousPosition messageId.toPosition)

def persistEmptyCursor :
    RocksDbManagedLedgerStorage → Except String Unit × RocksDbManagedLedgerStorage :=
  withCursor topic subscription fun _ cursor => cursor.persistState

def applyLatestCursor :
    RocksDbManagedLedgerStorage → Except String Unit × RocksDbManagedLedgerStorage :=
  withCursor topic subscription fun ledger cursor =>
    match ledger.lac with
    | some last => cursor.markDelete last
    | none => cursor.persistState

def applyStartMessageIdCursor (start : MessageId) :
    RocksDbManagedLedgerStorage → Except String Unit × RocksDbManagedLedgerStorage :=
  withCursor topic subscription fun ledger cursor =>
    match ledger.info.previousPosition start.toPosition with
    | some previous => cursor.markDelete previous
    | none => cursor.persistState

/-- The walk of `first_unacked_position`. From a stored position it takes at most
one step for each entry of the log. -/
def walkUnacked (info : StoredManagedLedgerInfo) (lac : ManagedLedgerPosition)
    (state : ManagedCursorState) : Nat → Option ManagedLedgerPosition →
    Option ManagedLedgerPosition
  | 0, _ => none
  | _, none => none
  | fuel + 1, some position =>
    if lac < position then none
    else if isManagedPositionAcknowledged state position then
      walkUnacked info lac state fuel (info.nextPosition position)
    else some position

variable (info : StoredManagedLedgerInfo)

def firstCandidate (state : ManagedCursorState) : Option ManagedLedgerPosition :=
  match state.markDelete with
  | some markDelete => info.nextPosition markDelete
  | none => info.firstPosition (-1)

def firstUnackedOf (lac : ManagedLedgerPosition)
    (state : ManagedCursorState) : Option ManagedLedgerPosition :=
  walkUnacked info lac state (info.totalEntries + 1) (firstCandidate info state)

/-- On an empty topic the cursor is not even opened. -/
def firstUnackedPosition :
    Except String (Option ManagedLedgerPosition) × RocksDbManagedLedgerStorage :=
  match topicLedger topic storage with
  | (.error error, storage) => (.error error, storage)
  | (.ok ledger, storage) =>
    match ledger.lac with
    | none => (.ok none, storage)
    | some lac =>
      match topicCursor topic subscription storage with
      | .error error => (.error error, storage)
      | .ok cursor => (.ok (firstUnackedOf ledger.info lac cursor.state), storage)

def cursorExists : Bool :=
  (storage.db (managedCursorKey (managedLedgerName topic)
    (encodeCursorName subscription))).isSome

def createCursor (options : CursorInitOptions) :
    RocksDbManagedLedgerStorage → Except String Unit × RocksDbManagedLedgerStorage :=
  match options.startMessageId with
  | some start => applyStartMessageIdCursor topic subscription start
  | none =>
    match options.initialPosition with
    | .latest => applyLatestCursor topic subscription
    | .earliest => persistEmptyCursor topic subscription

def openedResult (created : Bool)
    (answer : Except String (Option ManagedLedgerPosition) × RocksDbManagedLedgerStorage) :
    Except String CursorOpenResult × RocksDbManagedLedgerStorage :=
  (answer.1.map fun firstUnacked => { created := created, firstUnacked := firstUnacked }, answer.2)

def initializeOrOpenCursor (options : CursorInitOptions) (storage : RocksDbManagedLedgerStorage) :
    Except String CursorOpenResult × RocksDbManagedLedgerStorage :=
  if cursorExists topic subscription storage then
    openedResult false (firstUnackedPosition topic subscription storage)
  else
    match createCursor topic subscription options storage with
    | (.error error, storage) => (.error error, storage)
    | (.ok (), storage) => openedResult true (firstUnackedPosition topic subscription storage)

variable (storage : RocksDbManagedLedgerStorage)

def isAcknowledgedShared : Bool × RocksDbManagedLedgerStorage :=
  let answer := readCursor topic subscription (fun _ cursor =>
    isManagedPositionAcknowledged cursor.state messageId.toPosition) storage
  ((match answer.1 with
    | .ok acknowledged => acknowledged
    | .error _ => false), answer.2)

def isAcknowledged : Bool × RocksDbManagedLedgerStorage :=
  isAcknowledgedShared topic subscription messageId storage

variable (faults : AppendFaults)

/-- An append to an open ledger, which the cache shares with the readers. -/
def appendItems (name : Text) (ledger : RocksDBManagedLedger)
    (items : List Item) (storage : RocksDbManagedLedgerStorage) :
    Except String (List ManagedLedgerPosition) × RocksDbManagedLedgerStorage :=
  let outcome := addEntriesWithPartitionAndMetadata faults ledger storage.db storage.entryLog items
  (outcome.result, { storage with
    db := outcome.db
    entryLog := outcome.entryLog
    ledgers := Function.update storage.ledgers name (some outcome.ledger) })

/-- What the write queue does with a group of requests for one topic. -/
def appendMessages (topic : Text) (items : List Item) (storage : RocksDbManagedLedgerStorage) :
    Except String (List ManagedLedgerPosition) × RocksDbManagedLedgerStorage :=
  match topicLedger topic storage with
  | (.error error, storage) => (.error error, storage)
  | (.ok ledger, storage) =>
    appendItems faults (managedLedgerName topic) ledger items storage

/-- `seek_to_message_id` of a persistent subscription: the cursor is moved, and
the position to go on reading from is looked up. -/
def seekToMessageId : Except String (Option ManagedLedgerPosition) × RocksDbManagedLedgerStorage :=
  match seekCursor topic subscription messageId storage with
  | (.error error, storage) => (.error error, storage)
  | (.ok (), storage) => firstUnackedPosition topic subscription storage

def createTopic (topic : Text) (storage : RocksDbManagedLedgerStorage) :
    Except String Unit × RocksDbManagedLedgerStorage :=
  let opened := topicLedger topic storage
  (opened.1.map fun _ => (), opened.2)

/-- The cursor is deleted without a look at the ledger of its topic. -/
def deleteCursor : RocksDbManagedLedgerStorage :=
  { storage with db := storage.db.delete (managedCursorKey (managedLedgerName topic)
      (encodeCursorName subscription)) }

/-- Why a read of a topic fails: its ledger is not opened, or an entry not read. -/
inductive TopicReadError
  | opening (message : String)
  | reading (failure : EntryLogStore.ReadFailure)
deriving DecidableEq

def readEntriesFrom (topic : Text) (start : ManagedLedgerPosition) (limit : Nat)
    (storage : RocksDbManagedLedgerStorage) :
    Except TopicReadError (List StoredMessage) × RocksDbManagedLedgerStorage :=
  match topicLedger topic storage with
  | (.error error, storage) => (.error (.opening error), storage)
  | (.ok ledger, storage) =>
    ((ledger.readEntriesFrom storage.db storage.entryLog start limit).mapError .reading, storage)

def getMessageEntryById (topic : Text) (messageId : MessageId)
    (storage : RocksDbManagedLedgerStorage) : Option StoredMessage × RocksDbManagedLedgerStorage :=
  match topicLedger topic storage with
  | (.error _, storage) => (none, storage)
  | (.ok ledger, storage) =>
    (ledger.getMessageEntryById storage.db storage.entryLog messageId, storage)

/-- The arithmetic of `backlog_entries` on `u64`, whose sums wrap in a release build. -/
def backlogOf (state : ManagedCursorState) : Nat :=
  let total := info.totalEntries % u64Modulus
  match state.markDelete with
  | none => total
  | some mark =>
    let retired := ((info.ledgers.filter fun ledger =>
      decide (ledger.ledgerId < mark.ledgerId)).map StoredLedgerInfo.entries).sum
    let holes := (state.individuallyDeletedEntries.ranges.elements.map fun range =>
      range.stop.entryId - range.start.entryId + 1).sum
    total - (retired + mark.entryId + 1 + holes) % u64Modulus

def backlogEntries : Option Nat × RocksDbManagedLedgerStorage :=
  let answer := readCursor topic subscription (fun ledger cursor =>
    backlogOf ledger.info cursor.state) storage
  (answer.1.toOption, answer.2)

end RocksDbManagedLedgerStorage

end PulsarLite.Storage
