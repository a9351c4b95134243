import PulsarLite.Storage.CrashRecovery
import PulsarLite.Storage.SnapshotReads

/-!
# Linearizable reads

One writer and any number of readers take turns, one atomic step at a time: a
load or a store of a published value, a get or a write of the database, a read or
a write of the log file. What a reader returns is what its call returns between
two batches, in the state that was the latest one when the reader loaded the last
confirmed position.
-/

namespace PulsarLite.Storage.LinearizableReads

open Library List Function ManagedLedgerPosition Option RocksDBManagedLedger

variable {limit : Nat} {out : List StoredMessage} {pos start : ManagedLedgerPosition}
  {current : Option ManagedLedgerPosition} {info : StoredManagedLedgerInfo} {index : EntryIndex}
  {messageId : MessageId}

open StoredManagedLedgerInfo RocksDbManagedLedgerStorage EntryLogStore

structure LedgerState where
  ledger : RocksDBManagedLedger
  db : Db
  entryLog : EntryLogStore

/-- The state of the cursor does not change while it is read. -/
inductive Call
  | readEntriesFrom (start : ManagedLedgerPosition) (limit : Nat)
  | getMessageEntryById (messageId : MessageId)
  | firstUnackedPosition (cursor : ManagedCursorState)

inductive Answer
  | entries (result : Except ReadFailure (List StoredMessage))
  | message (result : Option StoredMessage)
  | position (result : Option ManagedLedgerPosition)
deriving DecidableEq

/-- What a call returns in a state in which nothing else happens. -/
def Call.answer (state : LedgerState) : Call → Answer
  | readEntriesFrom start limit =>
    .entries (state.ledger.readEntriesFrom state.db state.entryLog start limit)
  | getMessageEntryById messageId =>
    .message (state.ledger.getMessageEntryById state.db state.entryLog messageId)
  | firstUnackedPosition cursor =>
    .position (state.ledger.lac.bind fun lac => firstUnackedOf state.ledger.info lac cursor)

/-- Where a reader stands in its call. -/
inductive Reader
  | called (call : Call)
  | confirmed (call : Call) (lac : ManagedLedgerPosition)
  | scanning (limit : Nat) (info : StoredManagedLedgerInfo) (lac : ManagedLedgerPosition)
      (current : Option ManagedLedgerPosition) (out : List StoredMessage)
  | fetching (limit : Nat) (info : StoredManagedLedgerInfo) (lac : ManagedLedgerPosition)
      (pos : ManagedLedgerPosition) (out : List StoredMessage) (index : EntryIndex)
  | locating (messageId : MessageId)
  | loading (messageId : MessageId) (index : EntryIndex)
  | returned (answer : Answer)

variable (shared : LedgerState)

/-- The first load of every call is the last confirmed position. -/
def loadLac : Call → Reader
  | .readEntriesFrom start limit =>
    if limit = 0 then .returned (.entries (.ok []))
    else
      match shared.ledger.lac with
      | none => .returned (.entries (.ok []))
      | some lac =>
        if lac < start then .returned (.entries (.ok []))
        else .confirmed (.readEntriesFrom start limit) lac
  | .getMessageEntryById messageId =>
    match shared.ledger.lac with
    | none => .returned (.message none)
    | some lac =>
      if lac < messageId.toPosition then .returned (.message none)
      else .confirmed (.getMessageEntryById messageId) lac
  | .firstUnackedPosition cursor =>
    match shared.ledger.lac with
    | none => .returned (.position none)
    | some lac => .confirmed (.firstUnackedPosition cursor) lac

/-- The second load is the metadata. -/
def loadSnapshot (lac : ManagedLedgerPosition) : Call → Reader
  | .readEntriesFrom start limit => .scanning limit shared.ledger.info lac (some start) []
  | .getMessageEntryById messageId =>
    if isVisible messageId.toPosition shared.ledger.info lac then .locating messageId
    else .returned (.message none)
  | .firstUnackedPosition cursor =>
    .returned (.position (firstUnackedOf shared.ledger.info lac cursor))

/-- One step of a reader. The parts of a log file that an entry is read from are
written once, so the reading of an entry is one step. -/
def Reader.step : Reader → Reader
  | called call => loadLac shared call
  | confirmed call lac => loadSnapshot shared lac call
  | scanning _ _ _ none out => .returned (.entries (.ok out))
  | scanning limit info lac (some pos) out =>
    if limit ≤ out.length ∨ lac < pos then .returned (.entries (.ok out))
    else if isVisible pos info lac then
      match loadEntryIndex shared.db pos.ledgerId pos.entryId with
      | .error failure => .returned (.entries (.error failure))
      | .ok none => .scanning limit info lac (info.nextPosition pos) out
      | .ok (some index) => .fetching limit info lac pos out index
    else .scanning limit info lac (info.nextPosition pos) out
  | fetching limit info lac pos out index =>
    match shared.entryLog.read index with
    | .error failure => .returned (.entries (.error failure))
    | .ok record => .scanning limit info lac (info.nextPosition pos)
        (pushRecord out (some ({ pos with partition := index.partition }, record)))
  | locating messageId =>
    match loadEntryIndex shared.db messageId.ledger messageId.entry with
    | .ok (some index) => .loading messageId index
    | _ => .returned (.message none)
  | loading messageId index =>
    match shared.entryLog.read index with
    | .error _ => .returned (.message none)
    | .ok record =>
      if index.partition ≠ messageId.partition then .returned (.message none)
      else .returned (.message (some {
        messageId := messageId
        metadata := record.metadata
        payload := record.payload }))
  | returned answer => .returned answer

/-- Where the writer stands in the append of a batch. -/
inductive Writer
  | idle
  | assigned (faults : AppendFaults) (items : List Item) (assigned : Assignment)
  | written (faults : AppendFaults) (items : List Item) (assigned : Assignment)
      (indices : List EntryIndex)
  | committed (assigned : Assignment)
  | infoStored (assigned : Assignment)
  | ledgerIdStored (assigned : Assignment)
  | entriesStored (assigned : Assignment)
  | sizeStored (assigned : Assignment)

/-- A call of a reader, with the number of batches that were published when it
started. -/
structure Session where
  call : Call
  calledAt : Nat
  reader : Reader

/-- `published` has the states right after the batches, the first of them being
the state the ledger was opened in. -/
structure System where
  shared : LedgerState
  writer : Writer
  published : List LedgerState
  readers : Nat → Option Session

section

variable (assigned : Assignment) (ledger : RocksDBManagedLedger)

def storeInfo : RocksDBManagedLedger :=
  { ledger with info := assigned.nextInfo }

def storeLedgerId : RocksDBManagedLedger :=
  { ledger with runtime := { ledger.runtime with currentLedgerId := assigned.curId } }

def storeEntries : RocksDBManagedLedger :=
  { ledger with runtime := { ledger.runtime with currentLedgerEntries := assigned.curEntries } }

def storeSize : RocksDBManagedLedger :=
  { ledger with runtime := { ledger.runtime with currentLedgerSize := assigned.curSize } }

def storeLac : RocksDBManagedLedger :=
  { ledger with lac := assigned.positions.getLast? }

end

def System.withLedger (sys : System) (ledger : RocksDBManagedLedger) (writer : Writer) : System :=
  { sys with shared := { sys.shared with ledger := ledger }, writer := writer }

/-- The steps of the writer. Each of the three durable parts of an append may
fail, without a trace in the log file, and then nothing is published. (The log
answers with one index for each entry, so the check of their number in between
has nothing to do.) -/
inductive WriterStep (sys : System) : System → Prop
  | assign (faults items assigned) (idle : sys.writer = .idle) (nonempty : items ≠ [])
      (framed : ∀ item ∈ items, item.Framed) (traceless : WriteFaults.Traceless faults.entryLog)
      (outcome : assignItems sys.shared.ledger.maxEntriesPerLedger
        (startAssignment sys.shared.ledger sys.shared.db faults.allocations) items = .ok assigned)
      (fits : assigned.nextInfo.Encodable) :
      WriterStep sys { sys with
        shared := { sys.shared with db := assigned.db }
        writer := .assigned faults items assigned }
  | assignFails (faults : AppendFaults) (items error) (db : Db) (idle : sys.writer = .idle)
      (outcome : assignItems sys.shared.ledger.maxEntriesPerLedger
        (startAssignment sys.shared.ledger sys.shared.db faults.allocations) items =
        .error (error, db)) :
      WriterStep sys { sys with shared := { sys.shared with db := db } }
  | write (faults items assigned indices entryLog)
      (phase : sys.writer = .assigned faults items assigned)
      (outcome : appendBatch faults.entryLog sys.shared.entryLog assigned.toAppend =
        (.ok indices, entryLog)) :
      WriterStep sys { sys with
        shared := { sys.shared with entryLog := entryLog }
        writer := .written faults items assigned indices }
  | writeFails (faults items assigned error entryLog)
      (phase : sys.writer = .assigned faults items assigned)
      (outcome : appendBatch faults.entryLog sys.shared.entryLog assigned.toAppend =
        (.error error, entryLog)) :
      WriterStep sys { sys with
        shared := { sys.shared with entryLog := entryLog }
        writer := .idle }
  | commit (faults items assigned indices)
      (phase : sys.writer = .written faults items assigned indices) :
      WriterStep sys { sys with
        shared := { sys.shared with
          db := RocksDBManagedLedger.commit sys.shared.ledger.name assigned indices }
        writer := .committed assigned }
  | commitFails (faults items assigned indices)
      (phase : sys.writer = .written faults items assigned indices) :
      WriterStep sys { sys with writer := .idle }
  | storeInfo (assigned) (phase : sys.writer = .committed assigned) :
      WriterStep sys
        (sys.withLedger (storeInfo assigned sys.shared.ledger)
          (.infoStored assigned))
  | storeLedgerId (assigned) (phase : sys.writer = .infoStored assigned) :
      WriterStep sys
        (sys.withLedger (storeLedgerId assigned sys.shared.ledger)
          (.ledgerIdStored assigned))
  | storeEntries (assigned) (phase : sys.writer = .ledgerIdStored assigned) :
      WriterStep sys
        (sys.withLedger (storeEntries assigned sys.shared.ledger)
          (.entriesStored assigned))
  | storeSize (assigned) (phase : sys.writer = .entriesStored assigned) :
      WriterStep sys
        (sys.withLedger (storeSize assigned sys.shared.ledger)
          (.sizeStored assigned))
  | storeLac (assigned) (phase : sys.writer = .sizeStored assigned) :
      WriterStep sys { sys with
        shared := { sys.shared with
          ledger := storeLac assigned sys.shared.ledger }
        writer := .idle
        published := sys.published ++ [{ sys.shared with
          ledger := storeLac assigned sys.shared.ledger }] }

def System.setReader (sys : System) (reader : Nat) (session : Session) : System :=
  { sys with readers := update sys.readers reader (some session) }

/-- The states of the whole system, from a ledger that a process has opened. -/
inductive Reachable : System → Prop
  | opened (name node ledger) (history : CrashRecovery.History name node)
      (isOpen : node.ledger = some ledger) :
      Reachable {
        shared := { ledger := ledger, db := node.db, entryLog := node.entryLog }
        writer := .idle
        published := [{ ledger := ledger, db := node.db, entryLog := node.entryLog }]
        readers := fun _ => none }
  | writes (sys next) (before : Reachable sys) (step : WriterStep sys next) :
      Reachable next
  | calls (sys reader call) (before : Reachable sys) :
      Reachable (sys.setReader reader {
        call := call
        calledAt := sys.published.length - 1
        reader := .called call })
  | reads (sys reader session) (before : Reachable sys)
      (running : sys.readers reader = some session) :
      Reachable (sys.setReader reader { session with
        reader := session.reader.step sys.shared })

structure Quiescent (state : LedgerState) (log : CommittedLog) : Prop where
  settled : Settled state.ledger state.db log
  located : Located (Holds state.entryLog) state.db log
  inRange : LogInRange log
  encodable : state.ledger.info.Encodable

/-- What a state between two batches and the present state have in common. -/
structure Kept (shared state : LedgerState) : Prop where
  log : ∃ log, Quiescent state log ∧ Located (Holds shared.entryLog) shared.db log
  grown : state.ledger.info.Extends shared.ledger.info
  ordered : shared.ledger.info.Ordered
  encodable : shared.ledger.info.Encodable

def Indexed (shared state : LedgerState) (pos : ManagedLedgerPosition) (index : EntryIndex) :
    Prop :=
  ∃ entry : ManagedLedgerPosition × Item, entry.1.slot = pos.slot ∧
    readEntryRecord state.db state.entryLog pos.ledgerId pos.entryId =
      .ok (some (entry.1, recordOf entry.2)) ∧
    index.partition = entry.1.partition ∧ InRange (entryAt entry.1 entry.2) ∧
    Holds shared.entryLog index (entryAt entry.1 entry.2)

/-- The call did not end with the load of the last confirmed position. -/
def Admits (lac : ManagedLedgerPosition) : Call → Prop
  | .readEntriesFrom start limit => limit ≠ 0 ∧ ¬ lac < start
  | .getMessageEntryById messageId => ¬ lac < messageId.toPosition
  | .firstUnackedPosition _ => True

/-- The scan in the quiescent state goes on from the given position to its
result. -/
def Continues (state : LedgerState) (lac start : ManagedLedgerPosition) (limit : Nat)
    (current : Option ManagedLedgerPosition) (out : List StoredMessage) : Prop :=
  ∃ enough, ∀ fuel, enough ≤ fuel →
    readLoop state.db state.entryLog state.ledger.info lac limit fuel current out =
      state.ledger.readEntriesFrom state.db state.entryLog start limit

/-- A reader that has taken the last confirmed position of a quiescent state is on
the way to the answer of that state. -/
def Follows (shared state : LedgerState) (call : Call) : Reader → Prop
  | .called _ => False
  | .confirmed other lac => other = call ∧ state.ledger.lac = some lac ∧ Admits lac call
  | .scanning limit info lac current out => ∃ start, call = .readEntriesFrom start limit ∧
      Grown lac state.ledger.info info ∧ ∃ other, Agree lac other current ∧
        Continues state lac start limit other out
  | .fetching limit info lac pos out index => ∃ start, call = .readEntriesFrom start limit ∧
      Grown lac state.ledger.info info ∧ ¬ (limit ≤ out.length ∨ lac < pos) ∧
        isVisible pos state.ledger.info lac = true ∧ Indexed shared state pos index ∧
          Continues state lac start limit (some pos) out
  | .locating messageId => call = .getMessageEntryById messageId ∧ ∃ lac,
      state.ledger.lac = some lac ∧ ¬ lac < messageId.toPosition ∧
        isVisible messageId.toPosition state.ledger.info lac = true
  | .loading messageId index => call = .getMessageEntryById messageId ∧ (∃ lac,
      state.ledger.lac = some lac ∧ ¬ lac < messageId.toPosition ∧
        isVisible messageId.toPosition state.ledger.info lac = true) ∧
          Indexed shared state messageId.toPosition index
  | .returned answer => answer = call.answer state

variable {shared state : LedgerState} {call : Call}

theorem Kept.grown_from (kept : Kept shared state) {lac} (found : state.ledger.lac = some lac) :
    Grown lac state.ledger.info shared.ledger.info := by
  obtain ⟨log, quiescent, _⟩ := kept.log
  have accounts := quiescent.settled.accounts
  have confirmed := quiescent.settled.lac
  rw [found, eq_comm, map_eq_some_iff] at confirmed
  obtain ⟨last, isLast, same⟩ := confirmed
  have stored := accounts.stored (mem_of_getLast? isLast)
  exact {
    oldOrdered := accounts.ordered
    newOrdered := kept.ordered
    encodable := quiescent.encodable
    newEncodable := kept.encodable
    grown := kept.grown
    below := same ▸ accounts.ordered.slot_lt_write_slot stored }

theorem Kept.indexed (kept : Kept shared state) {lac}
    (visible : isVisible pos state.ledger.info lac = true) :
    ∃ index, loadEntryIndex shared.db pos.ledgerId pos.entryId = .ok (some index) ∧
      Indexed shared state pos index := by
  obtain ⟨log, quiescent, located⟩ := kept.log
  have accounts := quiescent.settled.accounts
  obtain ⟨entry, member, slot, read⟩ :=
    read_entry_record_visible accounts quiescent.located quiescent.inRange visible
  obtain ⟨index, found, holds⟩ := located entry member
  have same := (slot_eq_iff _ _).mp slot
  rw [same.1, same.2] at found
  refine ⟨index, load_entry_index_located found holds.1 same.1 same.2, entry, slot, read, ?_,
    quiescent.inRange entry member, holds⟩
  rw [holds.1, accounts.partitions entry member]
  rfl

theorem load_lac_follows (call : Call) (same : shared.ledger.lac = state.ledger.lac) :
    Follows shared state call (loadLac shared call) := by
  cases call with
  | readEntriesFrom start limit =>
    simp only [loadLac, same]
    by_cases nothing : limit = 0
    · simp [nothing, Follows, Call.answer, RocksDBManagedLedger.readEntriesFrom]
    cases found : state.ledger.lac with
    | none => simp [Follows, Call.answer, RocksDBManagedLedger.readEntriesFrom, nothing, found]
    | some lac =>
      simp only
      split_ifs with beyond
      · simp [Follows, Call.answer, RocksDBManagedLedger.readEntriesFrom, nothing, found, beyond]
      · exact ⟨rfl, found, nothing, beyond⟩
  | getMessageEntryById messageId =>
    simp only [loadLac, same]
    cases found : state.ledger.lac with
    | none =>
      simp [Follows, Call.answer, RocksDBManagedLedger.getMessageEntryById, messageEntryAt, found]
    | some lac =>
      simp only
      split_ifs with beyond
      · simp [Follows, Call.answer, RocksDBManagedLedger.getMessageEntryById, messageEntryAt,
          found, beyond]
      · exact ⟨rfl, found, beyond⟩
  | firstUnackedPosition cursor =>
    simp only [loadLac, same]
    cases found : state.ledger.lac with
    | none => simp [Follows, Call.answer, found]
    | some lac => exact ⟨rfl, found, trivial⟩

theorem load_snapshot_follows (kept : Kept shared state) {lac} (found : state.ledger.lac = some lac)
    (admits : Admits lac call) : Follows shared state call (loadSnapshot shared lac call) := by
  have grown := kept.grown_from found
  cases call with
  | readEntriesFrom start limit =>
    refine ⟨start, rfl, grown, some start, .inl rfl, state.ledger.info.totalEntries + 2, ?_⟩
    intro fuel enough
    rw [read_entries_fuel grown.oldOrdered grown.encodable start fuel enough]
    simp only [RocksDBManagedLedger.readEntriesFrom, if_neg admits.1, found, if_neg admits.2]
  | getMessageEntryById messageId =>
    simp only [loadSnapshot, grown.is_visible]
    split_ifs with visible
    · exact ⟨rfl, lac, found, admits, visible⟩
    · simp [Follows, Call.answer, RocksDBManagedLedger.getMessageEntryById, messageEntryAt, found,
        visible]
  | firstUnackedPosition cursor =>
    simp only [loadSnapshot, Follows, Call.answer, found, bind_some, grown.first_unacked]

theorem Continues.passed {lac}
    (continues : Continues state lac start limit current out) (passed : Passed lac current) :
    Call.answer state (.readEntriesFrom start limit) = .entries (.ok out) := by
  obtain ⟨enough, result⟩ := continues
  rw [Call.answer, ← result enough (le_refl _), read_loop_passed passed]

theorem Continues.stopped {lac} (continues : Continues state lac start limit (some pos) out)
    (stops : limit ≤ out.length ∨ lac < pos) :
    Call.answer state (.readEntriesFrom start limit) = .entries (.ok out) := by
  obtain ⟨enough, result⟩ := continues
  rw [Call.answer, ← result (enough + 1) (Nat.le_succ _), readLoop, if_pos stops]

theorem Continues.skip {lac} (continues : Continues state lac start limit (some pos) out)
    (goesOn : ¬ (limit ≤ out.length ∨ lac < pos))
    (hidden : isVisible pos state.ledger.info lac ≠ true) :
    Continues state lac start limit (state.ledger.info.nextPosition pos) out := by
  obtain ⟨enough, result⟩ := continues
  refine ⟨enough, ?_⟩
  intro fuel sufficient
  have next := result (fuel + 1) (Nat.le_succ_of_le sufficient)
  rw [readLoop, if_neg goesOn, if_neg hidden] at next
  exact next

theorem Continues.push {lac} (continues : Continues state lac start limit (some pos) out)
    (goesOn : ¬ (limit ≤ out.length ∨ lac < pos))
    (visible : isVisible pos state.ledger.info lac = true)
    {fetched : Option (ManagedLedgerPosition × EntryRecord)}
    (read : readEntryRecord state.db state.entryLog pos.ledgerId pos.entryId = .ok fetched) :
    Continues state lac start limit (state.ledger.info.nextPosition pos)
      (pushRecord out fetched) := by
  obtain ⟨enough, result⟩ := continues
  refine ⟨enough, ?_⟩
  intro fuel sufficient
  have next := result (fuel + 1) (Nat.le_succ_of_le sufficient)
  rw [readLoop, if_neg goesOn, if_pos visible, read] at next
  exact next

theorem scanning_follows (kept : Kept shared state) {lac}
    (follows : Follows shared state call (.scanning limit info lac current out)) :
    Follows shared state call ((Reader.scanning limit info lac current out).step shared) := by
  obtain ⟨start, rfl, grown, other, agree, continues⟩ := follows
  cases current with
  | none =>
    have passed : Passed lac other := by
      obtain same | passed := agree
      · exact same ▸ passed_none lac
      · exact passed.1
    exact (continues.passed passed).symm
  | some pos =>
    rw [Reader.step]
    obtain rfl | ⟨passed, beyond⟩ := agree
    · split_ifs with stops visible
      · exact (continues.stopped stops).symm
      · rw [grown.is_visible] at visible
        obtain ⟨index, located, indexed⟩ := kept.indexed visible
        simp only [located]
        exact ⟨start, rfl, grown, stops, visible, indexed, continues⟩
      · rw [grown.is_visible] at visible
        exact ⟨start, rfl, grown, _, grown.next_position pos, continues.skip stops visible⟩
    · rw [if_pos (.inr beyond.lac_lt)]
      exact (continues.passed passed).symm

theorem Indexed.read (indexed : Indexed shared state pos index) :
    ∃ record, shared.entryLog.read index = .ok record ∧
      readEntryRecord state.db state.entryLog pos.ledgerId pos.entryId =
        .ok (some ({ pos with partition := index.partition }, record)) := by
  obtain ⟨entry, slot, read, partition, inRange, holds⟩ := indexed
  refine ⟨recordOf entry.2, read_holds inRange holds, ?_⟩
  have same : entry.1 = { pos with partition := index.partition } := ext_slot slot partition.symm
  rw [read, same]

theorem fetching_follows {lac}
    (follows : Follows shared state call (.fetching limit info lac pos out index)) :
    Follows shared state call ((Reader.fetching limit info lac pos out index).step shared) := by
  obtain ⟨start, rfl, grown, goesOn, visible, indexed, continues⟩ := follows
  obtain ⟨record, answered, read⟩ := indexed.read
  simp only [Reader.step, answered]
  exact ⟨start, rfl, grown, _, grown.next_position pos, continues.push goesOn visible read⟩

theorem locating_follows (kept : Kept shared state)
    (follows : Follows shared state call (.locating messageId)) :
    Follows shared state call ((Reader.locating messageId).step shared) := by
  obtain ⟨rfl, lac, found, within, visible⟩ := follows
  obtain ⟨index, located, indexed⟩ := kept.indexed visible
  simp only [MessageId.toPosition] at located
  simp only [Reader.step, located]
  exact ⟨rfl, ⟨lac, found, within, visible⟩, indexed⟩

theorem loading_follows (follows : Follows shared state call (.loading messageId index)) :
    Follows shared state call ((Reader.loading messageId index).step shared) := by
  obtain ⟨rfl, ⟨lac, found, within, visible⟩, indexed⟩ := follows
  obtain ⟨record, answered, read⟩ := indexed.read
  simp only [MessageId.toPosition] at read
  have result : Call.answer state (.getMessageEntryById messageId) =
      .message (if index.partition ≠ messageId.partition then none
        else some {
          messageId := messageId
          metadata := record.metadata
          payload := record.payload }) := by
    simp only [Call.answer, RocksDBManagedLedger.getMessageEntryById, messageEntryAt, found,
      if_neg within, visible, if_true, read]
  simp only [Reader.step, answered]
  split_ifs with partition
  · simp only [Follows, result, if_pos partition]
  · simp only [Follows, result, if_neg partition]

theorem step_follows (kept : Kept shared state) {reader : Reader}
    (follows : Follows shared state call reader) :
    Follows shared state call (reader.step shared) := by
  cases reader with
  | called other => exact absurd follows id
  | confirmed other lac =>
    obtain ⟨rfl, found, admits⟩ := follows
    exact load_snapshot_follows kept found admits
  | scanning limit info lac current out => exact scanning_follows kept follows
  | fetching limit info lac pos out index => exact fetching_follows follows
  | locating messageId => exact locating_follows kept follows
  | loading messageId index => exact loading_follows follows
  | returned answer => exact follows

theorem Follows.extends {later reader} (follows : Follows shared state call reader)
    (grown : Files.Extends shared.entryLog.files later.entryLog.files) :
    Follows later state call reader := by
  have indexed pos index : Indexed shared state pos index → Indexed later state pos index := by
    intro found
    obtain ⟨entry, slot, read, partition, inRange, holds⟩ := found
    exact ⟨entry, slot, read, partition, inRange, holds.extends grown⟩
  cases reader with
  | fetching limit info lac pos out index =>
    obtain ⟨start, same, grown, goesOn, visible, found, continues⟩ := follows
    exact ⟨start, same, grown, goesOn, visible, indexed pos index found, continues⟩
  | loading messageId index =>
    obtain ⟨same, visible, found⟩ := follows
    exact ⟨same, visible, indexed _ index found⟩
  | called | confirmed | scanning | locating | returned => exact follows

/-- A batch whose items have their positions, on a database that has only seen
the allocations. -/
structure Planned (base : RocksDBManagedLedger) (log : CommittedLog) (faults : AppendFaults)
    (items : List Item) (assigned : Assignment) (db : Db) : Prop where
  db_eq : db = assigned.db
  nonempty : items ≠ []
  framed : ∀ item ∈ items, item.Framed
  fits : assigned.nextInfo.Encodable
  plan : ∃ start, Settled base start log ∧ assignItems base.maxEntriesPerLedger
    (startAssignment base start faults.allocations) items = .ok assigned

structure Publishing (base : RocksDBManagedLedger) (log : CommittedLog) (assigned : Assignment)
    (db : Db) : Prop where
  settled : Settled (publish base assigned) db log
  fits : assigned.nextInfo.Encodable
  grown : base.info.Extends assigned.nextInfo

def Writing (base : RocksDBManagedLedger) (log : CommittedLog) (shared : LedgerState) :
    Writer → Prop
  | .idle => shared.ledger = base ∧ Settled base shared.db log
  | .assigned faults items assigned => shared.ledger = base ∧
      WriteFaults.Traceless faults.entryLog ∧ Planned base log faults items assigned shared.db
  | .written faults items assigned indices => shared.ledger = base ∧
      Planned base log faults items assigned shared.db ∧
      (∃ before, appendBatch faults.entryLog before assigned.toAppend =
        (.ok indices, shared.entryLog)) ∧
      List.Forall₂ (Holds shared.entryLog) indices assigned.toAppend
  | .committed assigned => shared.ledger = base ∧ Publishing base log assigned shared.db
  | .infoStored assigned => shared.ledger = storeInfo assigned base ∧
      Publishing base log assigned shared.db
  | .ledgerIdStored assigned => shared.ledger = storeLedgerId assigned (storeInfo assigned base) ∧
      Publishing base log assigned shared.db
  | .entriesStored assigned => shared.ledger =
      storeEntries assigned (storeLedgerId assigned (storeInfo assigned base)) ∧
      Publishing base log assigned shared.db
  | .sizeStored assigned => shared.ledger =
      storeSize assigned
        (storeEntries assigned (storeLedgerId assigned (storeInfo assigned base))) ∧
      Publishing base log assigned shared.db

/-- The log is what the database has; the states that were published are parts of
it. -/
structure Tracks (sys : System) (log : CommittedLog) : Prop where
  located : Located (Holds sys.shared.entryLog) sys.shared.db log
  framed : ∀ entry ∈ log, entry.2.Framed
  ordered : sys.shared.ledger.info.Ordered
  aligned : Aligned sys.shared.entryLog
  states : ∀ state ∈ sys.published, ∃ old, Quiescent state old ∧ old ⊆ log ∧
    state.ledger.info.Extends sys.shared.ledger.info
  latest : ∃ last, sys.published.getLast? = some last ∧
    Writing last.ledger log sys.shared sys.writer

variable {sys next : System} {log : CommittedLog} {base : RocksDBManagedLedger}

theorem Planned.settled {faults items assigned} {db : Db}
    (planned : Planned base log faults items assigned db) : Settled base db log := by
  obtain ⟨start, settled, assignment⟩ := planned.plan
  rw [planned.db_eq]
  exact settled.moved (assign_items_moved assignment)

theorem Writing.lac {writer : Writer} (writing : Writing base log shared writer) :
    shared.ledger.lac = base.lac := by
  cases writer <;> exact (congrArg RocksDBManagedLedger.lac writing.1).trans rfl

section

variable (tracks : Tracks sys log)
include tracks

theorem Tracks.encodable : sys.shared.ledger.info.Encodable := by
  obtain ⟨last, isLast, writing⟩ := tracks.latest
  obtain ⟨_, quiescent, _⟩ := tracks.states last (mem_of_getLast? isLast)
  cases phase : sys.writer with
  | idle | assigned | written | committed =>
    rw [phase] at writing
    rw [writing.1]
    exact quiescent.encodable
  | infoStored | ledgerIdStored | entriesStored | sizeStored =>
    rw [phase] at writing
    rw [writing.1]
    exact writing.2.fits

theorem Tracks.kept {state : LedgerState}
    (member : state ∈ sys.published) : Kept sys.shared state := by
  obtain ⟨old, quiescent, part, grown⟩ := tracks.states state member
  exact {
    log := ⟨old, quiescent, fun entry inside => tracks.located entry (part inside)⟩
    grown := grown
    ordered := tracks.ordered
    encodable := tracks.encodable }

theorem Tracks.advance {after} (part : log ⊆ after) (published : next.published = sys.published)
    (located : Located (Holds next.shared.entryLog) next.shared.db after)
    (framed : ∀ entry ∈ after, entry.2.Framed) (ordered : next.shared.ledger.info.Ordered)
    (aligned : Aligned next.shared.entryLog)
    (grown : sys.shared.ledger.info.Extends next.shared.ledger.info)
    (writing : ∀ base, Writing base log sys.shared sys.writer →
      Writing base after next.shared next.writer) :
    Tracks next after where
  located := located
  framed := framed
  ordered := ordered
  aligned := aligned
  states state member := by
    rw [published] at member
    obtain ⟨old, quiescent, inLog, before⟩ := tracks.states state member
    exact ⟨old, quiescent, List.Subset.trans inLog part, before.trans grown⟩
  latest := by
    obtain ⟨last, isLast, here⟩ := tracks.latest
    exact ⟨last, published ▸ isLast, writing last.ledger here⟩

theorem Tracks.prepare (published : next.published = sys.published)
    (ledger : next.shared.ledger = sys.shared.ledger)
    (located : Located (Holds next.shared.entryLog) next.shared.db log)
    (aligned : Aligned next.shared.entryLog)
    (writing : ∀ base, Writing base log sys.shared sys.writer →
      Writing base log next.shared next.writer) :
    Tracks next log := by
  apply tracks.advance (List.Subset.refl log) published located tracks.framed _ aligned _ writing
  · exact ledger ▸ tracks.ordered
  · exact ledger ▸ .refl _

theorem Tracks.store (ledger writer) (ordered : ledger.info.Ordered)
    (grown : sys.shared.ledger.info.Extends ledger.info)
    (writing : ∀ base, Writing base log sys.shared sys.writer →
      Writing base log { sys.shared with ledger := ledger } writer) :
    Tracks (sys.withLedger ledger writer) log :=
  tracks.advance (List.Subset.refl log) rfl tracks.located tracks.framed ordered tracks.aligned
    grown writing

end

theorem written_commits {faults items assigned indices}
    (writing : Writing base log shared (.written faults items assigned indices))
    (located : Located (Holds shared.entryLog) shared.db log) :
    Publishing base (log ++ assigned.positions.zip items) assigned
        (commit shared.ledger.name assigned indices) ∧
      Located (Holds shared.entryLog) (commit shared.ledger.name assigned indices)
        (log ++ assigned.positions.zip items) := by
  obtain ⟨ledger, planned, ⟨before, written⟩, holds⟩ := writing
  obtain ⟨start, settled, assignment⟩ := planned.plan
  have committed : Committed faults base start before items assigned indices {
      result := .ok assigned.positions
      ledger := publish base assigned
      db := commit base.name assigned indices
      entryLog := shared.entryLog } := {
    assignment := assignment
    written := congrArg Prod.fst written
    result_eq := rfl
    ledger_eq := rfl
    db_eq := rfl
    entryLog_eq := (congrArg Prod.snd written).symm }
  have moved : AllocatorMoved start assigned.db := assign_items_moved assignment
  have locatedAtStart : Located (Holds shared.entryLog) start log := by
    intro entry member
    obtain ⟨index, found, here⟩ := located entry member
    rw [planned.db_eq, moved.frame _ (Keys.entry_key_ne_allocator_key _ _)] at found
    exact ⟨index, found, here⟩
  rw [ledger]
  constructor
  · exact {
      settled := committed.settled settled planned.nonempty
      fits := planned.fits
      grown := (committed.assigning settled).grown }
  · exact committed.located settled locatedAtStart holds

theorem stored_ledger (base assigned) :
    storeLac assigned (storeSize assigned (storeEntries assigned (storeLedgerId assigned
      (storeInfo assigned base)))) = publish base assigned := rfl

theorem Tracks.store_lac (tracks : Tracks sys log) {assigned : Assignment}
    (phase : sys.writer = .sizeStored assigned) :
    Tracks { sys with
      shared := { sys.shared with ledger := storeLac assigned sys.shared.ledger }
      writer := .idle
      published := sys.published ++ [{ sys.shared with
        ledger := storeLac assigned sys.shared.ledger }] } log := by
  obtain ⟨last, _, writing⟩ := tracks.latest
  rw [phase] at writing
  obtain ⟨ledger, publishing⟩ := writing
  have stored : storeLac assigned sys.shared.ledger = publish last.ledger assigned :=
    (congrArg (storeLac assigned) ledger).trans (stored_ledger _ _)
  have quiescent : Quiescent { sys.shared with ledger := publish last.ledger assigned } log := {
    settled := publishing.settled
    located := tracks.located
    inRange := log_in_range_of_encodable publishing.settled.accounts publishing.fits tracks.framed
    encodable := publishing.fits }
  have sameInfo : sys.shared.ledger.info = (publish last.ledger assigned).info :=
    (congrArg info ledger).trans rfl
  rw [stored]
  exact {
    located := tracks.located
    framed := tracks.framed
    ordered := publishing.settled.accounts.ordered
    aligned := tracks.aligned
    states state member := by
      obtain old | new := mem_append.mp member
      · obtain ⟨part, quiescent, inLog, grown⟩ := tracks.states state old
        exact ⟨part, quiescent, inLog, sameInfo ▸ grown⟩
      · rw [mem_singleton.mp new]
        exact ⟨log, quiescent, List.Subset.refl log, .refl _⟩
    latest := ⟨_, getLast?_concat, rfl, publishing.settled⟩ }

theorem writer_step_tracks (tracks : Tracks sys log) (step : WriterStep sys next) :
    ∃ after, Tracks next after := by
  cases step with
  | assign faults items assigned idle nonempty framed traceless outcome fits =>
    refine ⟨log, tracks.prepare rfl rfl ?_ tracks.aligned ?_⟩
    · exact tracks.located.moved (assign_items_moved outcome)
    intro base writing
    rw [idle] at writing
    obtain ⟨ledger, settled⟩ := writing
    rw [ledger] at outcome
    exact ⟨ledger, traceless, rfl, nonempty, framed, fits, sys.shared.db, settled, outcome⟩
  | assignFails faults items error db idle outcome =>
    have moved : AllocatorMoved sys.shared.db db := assign_items_error outcome
    refine ⟨log, tracks.prepare rfl rfl (tracks.located.moved moved) tracks.aligned ?_⟩
    intro base writing
    rw [idle] at writing ⊢
    exact ⟨writing.1, writing.2.moved moved⟩
  | write faults items assigned indices entryLog phase outcome =>
    obtain ⟨last, _, here⟩ := tracks.latest
    rw [phase] at here
    have grown := append_batch_extends faults.entryLog sys.shared.entryLog assigned.toAppend
    have aligned := append_batch_aligned tracks.aligned here.2.1 assigned.toAppend
    have holds := append_batch_holds tracks.aligned (congrArg Prod.fst outcome)
    rw [outcome] at grown aligned holds
    refine ⟨log, tracks.prepare rfl rfl ?_ aligned ?_⟩
    · exact tracks.located.weaken fun _ _ old => old.extends grown
    · intro base writing
      rw [phase] at writing
      exact ⟨writing.1, writing.2.2, ⟨_, outcome⟩, holds⟩
  | writeFails faults items assigned error entryLog phase outcome =>
    obtain ⟨last, _, here⟩ := tracks.latest
    rw [phase] at here
    have grown := append_batch_extends faults.entryLog sys.shared.entryLog assigned.toAppend
    have aligned := append_batch_aligned tracks.aligned here.2.1 assigned.toAppend
    rw [outcome] at grown aligned
    refine ⟨log, tracks.prepare rfl rfl ?_ aligned ?_⟩
    · exact tracks.located.weaken fun _ _ old => old.extends grown
    · intro base writing
      rw [phase] at writing
      exact ⟨writing.1, writing.2.2.settled⟩
  | commit faults items assigned indices phase =>
    obtain ⟨last, _, here⟩ := tracks.latest
    rw [phase] at here
    refine ⟨log ++ assigned.positions.zip items, tracks.advance (subset_append_left _ _) rfl
      (written_commits here tracks.located).2 ?_ tracks.ordered tracks.aligned
      (.refl _) ?_⟩
    · intro entry member
      obtain old | new := mem_append.mp member
      · exact tracks.framed entry old
      · exact here.2.1.framed entry.2 (of_mem_zip new).2
    · intro base writing
      rw [phase] at writing
      exact ⟨writing.1, (written_commits writing tracks.located).1⟩
  | commitFails faults items assigned indices phase =>
    refine ⟨log, tracks.prepare rfl rfl tracks.located tracks.aligned ?_⟩
    intro base writing
    rw [phase] at writing
    exact ⟨writing.1, writing.2.1.settled⟩
  | storeInfo assigned phase =>
    obtain ⟨last, _, ledger, publishing⟩ := tracks.latest.imp fun last here => phase ▸ here
    refine ⟨log, tracks.store _ _ publishing.settled.accounts.ordered ?_ ?_⟩
    · rw [ledger]
      exact publishing.grown
    · intro base writing
      rw [phase] at writing
      exact ⟨congrArg (storeInfo assigned) writing.1, writing.2⟩
  | storeLedgerId assigned phase =>
    refine ⟨log, tracks.store _ _ tracks.ordered (.refl _) ?_⟩
    intro base writing
    rw [phase] at writing
    exact ⟨congrArg (storeLedgerId assigned) writing.1, writing.2⟩
  | storeEntries assigned phase =>
    refine ⟨log, tracks.store _ _ tracks.ordered (StoredManagedLedgerInfo.Extends.refl _) ?_⟩
    intro base writing
    rw [phase] at writing
    exact ⟨congrArg (storeEntries assigned) writing.1, writing.2⟩
  | storeSize assigned phase =>
    refine ⟨log, tracks.store _ _ tracks.ordered (StoredManagedLedgerInfo.Extends.refl _) ?_⟩
    intro base writing
    rw [phase] at writing
    exact ⟨congrArg (storeSize assigned) writing.1, writing.2⟩
  | storeLac assigned phase => exact ⟨log, tracks.store_lac phase⟩

theorem writer_step_grows (step : WriterStep sys next) :
    next.readers = sys.readers ∧ (∃ more, next.published = sys.published ++ more) ∧
      Files.Extends sys.shared.entryLog.files next.shared.entryLog.files := by
  cases step with
  | write faults items assigned indices entryLog phase outcome
  | writeFails faults items assigned error entryLog phase outcome =>
    have grown := append_batch_extends faults.entryLog sys.shared.entryLog assigned.toAppend
    rw [outcome] at grown
    exact ⟨rfl, ⟨[], (append_nil _).symm⟩, grown⟩
  | storeLac assigned phase => exact ⟨rfl, ⟨_, rfl⟩, .refl _⟩
  | assign | assignFails | commit | commitFails | storeInfo | storeLedgerId | storeEntries
  | storeSize => exact ⟨rfl, ⟨[], (append_nil _).symm⟩, .refl _⟩

/-- A session is at its start, or follows a state that was the latest one at some
time since then. -/
def Attends (sys : System) (session : Session) : Prop :=
  session.reader = .called session.call ∧ session.calledAt < sys.published.length ∨
    ∃ batch state, session.calledAt ≤ batch ∧ sys.published[batch]? = some state ∧
      Follows sys.shared state session.call session.reader

theorem Tracks.attends_step {log} (tracks : Tracks sys log) {session : Session}
    (attends : Attends sys session) :
    ∃ batch state, session.calledAt ≤ batch ∧ sys.published[batch]? = some state ∧
      Follows sys.shared state session.call (session.reader.step sys.shared) := by
  obtain ⟨start, earlier⟩ | ⟨batch, state, atLeast, found, follows⟩ := attends
  · obtain ⟨last, isLast, writing⟩ := tracks.latest
    refine ⟨sys.published.length - 1, last, by omega, ?_, ?_⟩
    · rw [← isLast, getLast?_eq_getElem?]
    · rw [start]
      exact load_lac_follows session.call writing.lac
  · have kept := tracks.kept (mem_of_getElem? found)
    exact ⟨batch, state, atLeast, found, step_follows kept follows⟩

theorem Attends.writes {next session} (attends : Attends sys session) {more}
    (published : next.published = sys.published ++ more)
    (grown : Files.Extends sys.shared.entryLog.files next.shared.entryLog.files) :
    Attends next session := by
  obtain ⟨start, earlier⟩ | ⟨batch, state, atLeast, found, follows⟩ := attends
  · left
    rw [published, length_append]
    exact ⟨start, by omega⟩
  right
  refine ⟨batch, state, atLeast, ?_, follows.extends grown⟩
  have inside := (List.getElem?_eq_some_iff.mp found).1
  rw [published, List.getElem?_append_left inside]
  exact found

/-- The invariant of the system. -/
theorem reachable_attends (reachable : Reachable sys) : (∃ log, Tracks sys log) ∧
      ∀ reader session, sys.readers reader = some session → Attends sys session := by
  induction reachable with
  | opened name node ledger history isOpen =>
    have alive := history.alive
    have running := alive.running ledger isOpen
    have accounts := running.settled.accounts
    have quiescent : Quiescent
        { ledger := ledger, db := node.db, entryLog := node.entryLog } node.log := {
      settled := running.settled
      located := alive.durable.located
      inRange := log_in_range_of_encodable accounts running.encodable alive.durable.framed
      encodable := running.encodable }
    refine ⟨⟨node.log, ?_⟩, fun _ _ found => by cases found⟩
    exact {
      located := alive.durable.located
      framed := alive.durable.framed
      ordered := accounts.ordered
      aligned := alive.aligned ledger isOpen
      states state member := by
        rw [mem_singleton.mp member]
        exact ⟨node.log, quiescent, List.Subset.refl _, .refl _⟩
      latest := ⟨_, rfl, rfl, running.settled⟩ }
  | writes sys next before step ih =>
    obtain ⟨⟨log, tracks⟩, sessions⟩ := ih
    obtain ⟨readers, ⟨more, published⟩, grown⟩ := writer_step_grows step
    refine ⟨writer_step_tracks tracks step, ?_⟩
    intro reader session found
    rw [readers] at found
    exact (sessions reader session found).writes published grown
  | calls sys reader call before ih =>
    obtain ⟨⟨log, tracks⟩, sessions⟩ := ih
    refine ⟨⟨log, tracks.prepare rfl rfl tracks.located tracks.aligned fun _ writing => writing⟩,
      ?_⟩
    intro other session found
    by_cases same : other = reader
    · subst same
      simp only [System.setReader, update_self, some.injEq] at found
      subst found
      obtain ⟨last, isLast, _⟩ := tracks.latest
      have nonempty : sys.published ≠ [] := by
        intro empty
        rw [empty] at isLast
        cases isLast
      have positive := length_pos_iff.mpr nonempty
      exact .inl ⟨rfl, Nat.sub_lt positive Nat.zero_lt_one⟩
    · simp only [System.setReader, update_of_ne same] at found
      exact sessions other session found
  | reads sys reader session before running ih =>
    obtain ⟨⟨log, tracks⟩, sessions⟩ := ih
    refine ⟨⟨log, tracks.prepare rfl rfl tracks.located tracks.aligned fun _ writing => writing⟩,
      ?_⟩
    intro other current found
    by_cases same : other = reader
    · subst same
      simp only [System.setReader, update_self, some.injEq] at found
      subst found
      exact .inr (tracks.attends_step (sessions other session running))
    · simp only [System.setReader, update_of_ne same] at found
      exact sessions other current found

def Reader.steps (states : Nat → LedgerState) : Nat → Reader → Reader
  | 0, reader => reader
  | count + 1, reader => steps (fun index => states (index + 1)) count (reader.step (states 0))

/-- The steps that a reader has before it, once it has the metadata. -/
def Reader.ahead : Reader → Nat
  | scanning _ info _ current _ => 2 * info.passes current + 1
  | fetching _ info _ pos _ _ => 2 * info.passes (some pos)
  | locating _ => 2
  | loading _ _ => 1
  | _ => 0

/-- A reader that has the metadata, and metadata it can walk over. -/
def Reader.Equipped : Reader → Prop
  | called _ => False
  | confirmed _ _ => False
  | scanning _ info _ _ _ => info.Ordered ∧ info.Encodable
  | fetching _ info _ _ _ _ => info.Ordered ∧ info.Encodable
  | _ => True

theorem step_ahead (shared) {reader : Reader} (equipped : reader.Equipped) :
    (reader.step shared).Equipped ∧
      ((∃ answer, reader = .returned answer) ∨ (reader.step shared).ahead < reader.ahead) := by
  cases reader with
  | called | confirmed => exact absurd equipped id
  | scanning limit info lac current out =>
    cases current with
    | none => exact ⟨trivial, .inr (Nat.succ_pos _)⟩
    | some pos =>
      have fewer := passes_next equipped.1 equipped.2 pos
      rw [Reader.step]
      split_ifs with stops visible
      · exact ⟨trivial, .inr (Nat.succ_pos _)⟩
      · cases loadEntryIndex shared.db pos.ledgerId pos.entryId with
        | error failure => exact ⟨trivial, .inr (Nat.succ_pos _)⟩
        | ok located =>
          cases located with
          | none =>
            refine ⟨equipped, .inr ?_⟩
            simp only [Reader.ahead]
            omega
          | some index => exact ⟨equipped, .inr (Nat.lt_succ_self _)⟩
      · refine ⟨equipped, .inr ?_⟩
        simp only [Reader.ahead]
        omega
  | fetching limit info lac pos out index =>
    have fewer := passes_next equipped.1 equipped.2 pos
    rw [Reader.step]
    cases shared.entryLog.read index with
    | error failure =>
      refine ⟨trivial, .inr ?_⟩
      simp only [Reader.ahead]
      omega
    | ok record =>
      refine ⟨equipped, .inr ?_⟩
      simp only [Reader.ahead]
      omega
  | locating messageId =>
    rw [Reader.step]
    split
    · exact ⟨trivial, .inr (Nat.lt_succ_self 1)⟩
    · exact ⟨trivial, .inr (Nat.succ_pos 1)⟩
  | loading messageId index =>
    rw [Reader.step]
    cases shared.entryLog.read index with
    | error failure => exact ⟨trivial, .inr Nat.zero_lt_one⟩
    | ok record =>
      split_ifs
      all_goals exact ⟨trivial, .inr Nat.zero_lt_one⟩
  | returned answer => exact ⟨trivial, .inl ⟨answer, rfl⟩⟩

theorem equipped_returns (bound : Nat) (reader : Reader) (states : Nat → LedgerState)
    (equipped : reader.Equipped) (few : reader.ahead < bound) :
    ∃ count answer, reader.steps states count = .returned answer := by
  induction bound generalizing reader states with
  | zero => exact absurd few (Nat.not_lt_zero _)
  | succ bound ih =>
    obtain ⟨later, ended | fewer⟩ := step_ahead (states 0) equipped
    · obtain ⟨answer, same⟩ := ended
      exact ⟨0, answer, same⟩
    · obtain ⟨count, answer, returned⟩ := ih _ (fun index => states (index + 1)) later (by omega)
      exact ⟨count + 1, answer, returned⟩

theorem Reachable.info_walkable (reachable : Reachable sys) :
    sys.shared.ledger.info.Ordered ∧ sys.shared.ledger.info.Encodable := by
  obtain ⟨⟨log, tracks⟩, _⟩ := reachable_attends reachable
  exact ⟨tracks.ordered, tracks.encodable⟩

theorem load_snapshot_equipped {shared} (lac call)
    (walkable : shared.ledger.info.Ordered ∧ shared.ledger.info.Encodable) :
    (loadSnapshot shared lac call).Equipped := by
  cases call with
  | readEntriesFrom start limit => exact walkable
  | getMessageEntryById messageId =>
    rw [loadSnapshot]
    split_ifs <;> trivial
  | firstUnackedPosition cursor => trivial

theorem load_lac_cases (shared call) :
    (loadLac shared call).Equipped ∨ ∃ lac, loadLac shared call = .confirmed call lac := by
  cases call with
  | readEntriesFrom start limit =>
    rw [loadLac]
    split_ifs
    · exact .inl trivial
    cases shared.ledger.lac with
    | none => exact .inl trivial
    | some lac =>
      simp only
      split_ifs
      · exact .inl trivial
      · exact .inr ⟨lac, rfl⟩
  | getMessageEntryById messageId =>
    rw [loadLac]
    cases shared.ledger.lac with
    | none => exact .inl trivial
    | some lac =>
      simp only
      split_ifs
      · exact .inl trivial
      · exact .inr ⟨lac, rfl⟩
  | firstUnackedPosition cursor =>
    rw [loadLac]
    cases shared.ledger.lac with
    | none => exact .inl trivial
    | some lac => exact .inr ⟨lac, rfl⟩

theorem confirmed_returns (call lac) (states : Nat → LedgerState)
    (walkable : (states 0).ledger.info.Ordered ∧ (states 0).ledger.info.Encodable) :
    ∃ count answer, (Reader.confirmed call lac).steps states count = .returned answer := by
  have equipped := load_snapshot_equipped lac call walkable
  obtain ⟨count, answer, returned⟩ := equipped_returns _ _ (fun index => states (index + 1))
    equipped (Nat.lt_succ_self _)
  exact ⟨count + 1, answer, returned⟩

theorem called_returns (call : Call) (states : Nat → LedgerState)
    (walkable : ∀ index, (states index).ledger.info.Ordered ∧
      (states index).ledger.info.Encodable) :
    ∃ count answer, (Reader.called call).steps states count = .returned answer := by
  obtain equipped | ⟨lac, confirmed⟩ := load_lac_cases (states 0) call
  · obtain ⟨count, answer, returned⟩ := equipped_returns _ _ (fun index => states (index + 1))
      equipped (Nat.lt_succ_self _)
    exact ⟨count + 1, answer, returned⟩
  obtain ⟨count, answer, returned⟩ :=
    confirmed_returns call lac (fun index => states (index + 1)) (walkable 1)
  refine ⟨count + 1, answer, ?_⟩
  rw [← confirmed] at returned
  exact returned

theorem Follows.equipped {shared state call reader} (follows : Follows shared state call reader) :
    reader.Equipped ∨ ∃ lac, reader = .confirmed call lac := by
  cases reader with
  | called other => exact absurd follows id
  | confirmed other lac => exact .inr ⟨lac, by rw [follows.1]⟩
  | scanning | fetching =>
    obtain ⟨_, _, grown, _⟩ := follows
    exact .inl ⟨grown.newOrdered, grown.newEncodable⟩
  | locating | loading | returned => exact .inl trivial

/-- Whenever a step of a reader ends its call, the answer is the one that the
call has right after some batch, which was published last at some time between
the start of the call and now. And every call ends after finitely many steps of
its reader, whatever the others do in between. -/
theorem reads_are_linearizable (sys : System) (reachable : Reachable sys) (reader : Nat)
    (session : Session) (running : sys.readers reader = some session) :
    (∀ answer, session.reader.step sys.shared = .returned answer →
      ∃ batch state, session.calledAt ≤ batch ∧ sys.published[batch]? = some state ∧
        answer = session.call.answer state) ∧
    ∀ states : Nat → LedgerState,
      (∀ index, ∃ later, Reachable later ∧ later.shared = states index) →
        ∃ count answer, session.reader.steps states count = .returned answer := by
  obtain ⟨⟨log, tracks⟩, sessions⟩ := reachable_attends reachable
  have attends := sessions reader session running
  constructor
  · intro answer returns
    obtain ⟨batch, state, atLeast, found, follows⟩ := tracks.attends_step attends
    rw [returns] at follows
    exact ⟨batch, state, atLeast, found, follows⟩
  intro states others
  have walkable index : (states index).ledger.info.Ordered ∧
      (states index).ledger.info.Encodable := by
    obtain ⟨later, laterReachable, same⟩ := others index
    exact same ▸ laterReachable.info_walkable
  obtain ⟨start, _⟩ | ⟨_, _, _, _, follows⟩ := attends
  · rw [start]
    exact called_returns session.call states walkable
  · obtain equipped | ⟨lac, confirmed⟩ := follows.equipped
    · exact equipped_returns _ _ states equipped (Nat.lt_succ_self _)
    · rw [confirmed]
      exact confirmed_returns session.call lac states (walkable 0)

open CrashRecovery

def sampleState : LedgerState where
  ledger := (appendOutcome .none [sampleItem, sampleItem] sampleLedger
    sampleOpened).ledger
  db := sampleAppended.db
  entryLog := sampleAppended.entryLog

def sampleSession : Session where
  call := .firstUnackedPosition .default
  calledAt := 0
  reader := .called (.firstUnackedPosition .default)

def sampleCalled : System :=
  { shared := sampleState
    writer := .idle
    published := [sampleState]
    readers := fun _ => none : System }.setReader 0 sampleSession

/-- The ledger holds two entries at most, and has them. -/
theorem reads_are_linearizable_across_rollover : ∃ (sys : System) (session : Session),
    sys.readers 0 = some session ∧ session.calledAt = 0 ∧
    sys.shared.ledger.info.ledgers.length = 2 ∧ sys.shared.ledger.lac = some ⟨0, 1, 0⟩ ∧
    ∃ batch state, session.calledAt ≤ batch ∧ sys.published[batch]? = some state ∧
      Answer.position (some ⟨0, 0, -1⟩) = session.call.answer state := by
  have called : Reachable sampleCalled :=
    .calls _ 0 _ (.opened sampleName sampleAppended _ sample_appended rfl)
  have confirmed := Reachable.reads _ 0 sampleSession called rfl
  have assigned := confirmed.writes _ _ (.assign .none [sampleItem] _ rfl (by decide) (by decide)
    ⟨rfl, fun _ _ impossible => by cases impossible⟩ rfl (by decide))
  have written := assigned.writes _ _ (.write _ _ _ _ _ rfl rfl)
  have committed := written.writes _ _ (.commit _ _ _ _ rfl)
  have stored := committed.writes _ _ (.storeInfo _ rfl)
  exact ⟨_, _, rfl, rfl, by decide, by decide,
    (reads_are_linearizable _ stored 0 _ rfl).1 _ (by rfl)⟩

end PulsarLite.Storage.LinearizableReads
