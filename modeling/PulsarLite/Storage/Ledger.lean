import PulsarLite.Storage.EntryLog
import PulsarLite.Storage.Navigation

/-!
# RocksDB managed ledgers

A managed ledger publishes its metadata and its last confirmed position to the
readers, and keeps the ledger it writes to in a runtime cursor of its own. Only
the write queue appends. An append first assigns positions, taking new ledger
ids from an allocator shared by all ledgers, then writes the entry log, then
commits the entry locations and the metadata in one RocksDB batch, and publishes
last. `AppendFaults` says which of these steps fail, and how many ids other
ledgers are given before each allocation.
-/

namespace PulsarLite.Storage

open Library Keys

structure ManagedLedgerConfig where
  maxEntriesPerLedger : Option Nat
deriving DecidableEq

structure ManagedLedgerRuntimeState where
  currentLedgerId : Nat
  currentLedgerEntries : Nat
  currentLedgerSize : Nat
deriving DecidableEq

structure RocksDBManagedLedger where
  name : Text
  maxEntriesPerLedger : Nat
  info : StoredManagedLedgerInfo
  lac : Option ManagedLedgerPosition
  runtime : ManagedLedgerRuntimeState
deriving DecidableEq

structure Item where
  partition : Int
  metadata : Bytes
  payload : Bytes
deriving DecidableEq

def defaultMaxEntriesPerLedger : Nat := 50000

/-- What happens at one allocation of a ledger id: how many ids other ledgers
are given just before it, and the error RocksDB answers it with. -/
structure AllocationEvent where
  others : Nat
  error : Option String
deriving DecidableEq

structure AppendFaults where
  allocations : List AllocationEvent
  entryLog : WriteFaults
  dbWrite : Option String
deriving DecidableEq

def AppendFaults.none : AppendFaults where
  allocations := []
  entryLog := .none
  dbWrite := .none

def AllocationEvent.quiet : AllocationEvent where
  others := 0
  error := none

def nextLedgerId (db : Db) : Except String Nat :=
  match db ledgerIdAllocatorKey with
  | none => .ok 0
  | some (.nextLedgerId value) => .ok value
  | some _ => .error "failed to deserialize the next ledger id"

def allocateLedgerId (db : Db) : Except String (Nat × Db) := do
  let next ← nextLedgerId db
  return (next, db.put ledgerIdAllocatorKey (.nextLedgerId (next + 1)))

def otherAllocations : Nat → Db → Db
  | 0, db => db
  | count + 1, db =>
    match allocateLedgerId db with
    | .ok (_, db) => otherAllocations count db
    | .error _ => db

/-- One allocation in its surroundings. An error carries the database as it is
left behind. -/
def allocate (event : AllocationEvent) (db : Db) : Except (String × Db) (Nat × Db) :=
  let db := otherAllocations event.others db
  match event.error with
  | some error => .error (error, db)
  | none =>
    match allocateLedgerId db with
    | .ok allocated => .ok allocated
    | .error error => .error (error, db)

namespace RocksDBManagedLedger

variable (info : StoredManagedLedgerInfo)

def runtimeFromInfo : ManagedLedgerRuntimeState where
  currentLedgerId := info.currentLedger.ledgerId
  currentLedgerEntries := info.currentLedger.entries
  currentLedgerSize := info.currentLedger.size

def lacFromInfoAndDb (db : Db) : Except String (Option ManagedLedgerPosition) :=
  match info.ledgers.reverse.find? fun ledger => decide (0 < ledger.entries) with
  | none => .ok none
  | some ledger =>
    match db (managedEntryKey ledger.ledgerId (ledger.entries - 1)) with
    | none => .ok none
    | some (.entryLocation location) => .ok (some {
        ledgerId := ledger.ledgerId
        entryId := ledger.entries - 1
        partition := location.partition })
    | some _ => .error "failed to deserialize an entry location"

structure OpenFaults where
  allocations : List AllocationEvent
  infoPut : Option String
deriving DecidableEq

def OpenFaults.none : OpenFaults where
  allocations := []
  infoPut := .none

variable (event : AllocationEvent)

/-- The metadata of the database, or of a new ledger. -/
def loadInfo (name : Text) (db : Db) : Except (String × Db) (StoredManagedLedgerInfo × Db) :=
  match db (managedLedgerKey name) with
  | none => do
      let (ledgerId, db) ← allocate event db
      return (StoredManagedLedgerInfo.new ledgerId, db)
  | some (.managedLedgerInfo info) =>
    match StoredManagedLedgerInfo.decode info with
    | .ok info => .ok (info, db)
    | .error error => .error (error, db)
  | some _ => .error ("failed to decode Protobuf message", db)

def initializeInfo (info : StoredManagedLedgerInfo) (db : Db) :
    Except (String × Db) (StoredManagedLedgerInfo × Db) :=
  if info.ledgers.isEmpty then do
    let (ledgerId, db) ← allocate event db
    return (info.ensureInitialized ledgerId, db)
  else .ok (info, db)

def rollFullInfo (maxEntriesPerLedger : Nat) (info : StoredManagedLedgerInfo) (db : Db) :
    Except (String × Db) (StoredManagedLedgerInfo × Db) :=
  if info.currentLedgerIsFull maxEntriesPerLedger then do
    let (ledgerId, db) ← allocate event db
    return (info.rollOverCurrentLedger ledgerId, db)
  else .ok (info, db)

def configuredMax (config : ManagedLedgerConfig) : Nat :=
  max (config.maxEntriesPerLedger.getD defaultMaxEntriesPerLedger) 1

def openWithConfig (faults : OpenFaults) (name : Text) (db : Db) (config : ManagedLedgerConfig) :
    Except (String × Db) (RocksDBManagedLedger × Db) := do
  let event (index : Nat) : AllocationEvent := faults.allocations.getD index .quiet
  let (info, db) ← loadInfo (event 0) name db
  let (info, db) ← initializeInfo (event 1) info db
  let (info, db) ← rollFullInfo (event 2) (configuredMax config) info db
  match faults.infoPut with
  | some error => .error (error, db)
  | none =>
    let db := db.put (managedLedgerKey name) (.managedLedgerInfo info.encode)
    match lacFromInfoAndDb info db with
    | .error error => .error (error, db)
    | .ok lac => .ok ({
        name := name
        maxEntriesPerLedger := configuredMax config
        info := info
        lac := lac
        runtime := runtimeFromInfo info }, db)

structure Assignment where
  db : Db
  events : List AllocationEvent
  nextInfo : StoredManagedLedgerInfo
  curId : Nat
  curEntries : Nat
  curSize : Nat
  positions : List ManagedLedgerPosition
  toAppend : List EntryToAppend

def startAssignment (ledger : RocksDBManagedLedger) (db : Db) (events : List AllocationEvent) :
    Assignment where
  db := db
  events := events
  nextInfo := ledger.info
  curId := ledger.runtime.currentLedgerId
  curEntries := ledger.runtime.currentLedgerEntries
  curSize := ledger.runtime.currentLedgerSize
  positions := []
  toAppend := []

variable (maxEntriesPerLedger : Nat) (current : Assignment)

def rollIfFull : Except (String × Db) Assignment :=
  if maxEntriesPerLedger ≤ current.curEntries then do
    let (nextLedgerId, db) ← allocate (current.events.headD .quiet) current.db
    return { current with
      db := db
      events := current.events.tail
      nextInfo := current.nextInfo.rollOverCurrentLedger nextLedgerId
      curId := nextLedgerId
      curEntries := 0
      curSize := 0 }
  else .ok current

def messageSize (item : Item) : Nat := item.metadata.length + item.payload.length

variable (item : Item)

def nextPlace : ManagedLedgerPosition where
  ledgerId := current.curId
  entryId := current.curEntries
  partition := item.partition

def placeItem : Assignment :=
  { current with
    nextInfo := current.nextInfo.modifyCurrentLedger fun ledger =>
      { ledger with
        entries := ledger.entries + 1
        size := ledger.size + messageSize item }
    curEntries := current.curEntries + 1
    curSize := current.curSize + messageSize item
    positions := current.positions ++ [nextPlace current item]
    toAppend := current.toAppend ++ [{
      ledgerId := current.curId
      entryId := current.curEntries
      partition := item.partition
      metadata := item.metadata
      payload := item.payload }] }

/-- One item: the ledger is rolled over before it if full, and after it as soon
as it is full again. -/
def assignItem (item : Item) : Except (String × Db) Assignment := do
  let current ← rollIfFull maxEntriesPerLedger current
  rollIfFull maxEntriesPerLedger (placeItem current item)

def assignItems (items : List Item) : Except (String × Db) Assignment :=
  items.foldlM (assignItem maxEntriesPerLedger) current

def locationOf (index : EntryIndex) : StoredEntryLocation where
  fileId := index.fileId
  offset := index.offset
  len := index.len
  checksum := index.checksum
  partition := index.partition

def putLocations (db : Db) : List (ManagedLedgerPosition × EntryIndex) → Db
  | [] => db
  | (position, index) :: rest =>
    putLocations (db.put (managedEntryKey position.ledgerId position.entryId)
      (.entryLocation (locationOf index))) rest

/-- The write batch: the location of every entry, then the metadata. -/
def commit (name : Text) (assigned : Assignment) (indices : List EntryIndex) : Db :=
  (putLocations assigned.db (assigned.positions.zip indices)).put (managedLedgerKey name)
    (.managedLedgerInfo assigned.nextInfo.encode)

def publish (ledger : RocksDBManagedLedger) (assigned : Assignment) : RocksDBManagedLedger :=
  { ledger with
    info := assigned.nextInfo
    runtime := {
      currentLedgerId := assigned.curId
      currentLedgerEntries := assigned.curEntries
      currentLedgerSize := assigned.curSize }
    lac := assigned.positions.getLast? }

structure AppendOutcome where
  result : Except String (List ManagedLedgerPosition)
  ledger : RocksDBManagedLedger
  db : Db
  entryLog : EntryLogStore

variable (faults : AppendFaults) (ledger : RocksDBManagedLedger)

/-- The durable half of an append, from the entry log to the published state. -/
def writeAssigned (entryLog : EntryLogStore) (assigned : Assignment) : AppendOutcome :=
  let written := EntryLogStore.appendBatch faults.entryLog entryLog assigned.toAppend
  let refused (error : String) : AppendOutcome := {
    result := .error error
    ledger := ledger
    db := assigned.db
    entryLog := written.2 }
  match written.1 with
  | .error error => refused error
  | .ok indices =>
    if indices.length ≠ assigned.positions.length then
      refused ("entrylog append_batch size mismatch: got " ++ toString indices.length ++
        " indices for " ++ toString assigned.positions.length ++ " entries")
    else
      match faults.dbWrite with
      | some error => refused error
      | none => {
          result := .ok assigned.positions
          ledger := publish ledger assigned
          db := commit ledger.name assigned indices
          entryLog := written.2 }

def addEntriesWithPartitionAndMetadata
    (db : Db) (entryLog : EntryLogStore) (items : List Item) : AppendOutcome :=
  if items.isEmpty then { result := .ok [], ledger := ledger, db := db, entryLog := entryLog }
  else
    match assignItems ledger.maxEntriesPerLedger
        (startAssignment ledger db faults.allocations) items with
    | .error (error, db) =>
      { result := .error error, ledger := ledger, db := db, entryLog := entryLog }
    | .ok assigned => writeAssigned faults ledger entryLog assigned

end RocksDBManagedLedger

end PulsarLite.Storage
