import PulsarLite.Storage.Append

/-!
# Opening a ledger

Opening reads the metadata back, takes a first ledger id or rolls over a full
ledger, writes the metadata, and recomputes the last confirmed position from the
last location. What it finds is the committed log.
-/

namespace PulsarLite.Storage.RocksDBManagedLedger

open Library Keys Except List StoredManagedLedgerInfo
open StoredManagedLedgerInfo (new)

variable {db old middle loadedDb : Db} {maxEntries next : Nat} {error : String}

open StoredManagedLedgerInfo

def Describes (index : EntryIndex) (entry : EntryToAppend) : Prop :=
  index = EntryLogStore.indexAt index.fileId index.offset entry

variable {info : StoredManagedLedgerInfo}

theorem last_nonempty_ledger (ordered : info.Ordered) {ledger}
    (found : (info.ledgers.reverse.find? fun ledger => decide (0 < ledger.entries)) = some ledger) :
    ledger ∈ info.ledgers ∧ 0 < ledger.entries ∧ ∀ pos, info.Stores pos →
      pos.slot ≤ toLex (ledger.ledgerId, ledger.entries - 1) := by
  obtain ⟨holds, later, earlier, split, empty⟩ := List.find?_eq_some_iff_append.mp found
  have positive : 0 < ledger.entries := by simpa using holds
  have member : ledger ∈ info.ledgers := by
    rw [← mem_reverse]
    exact mem_of_find?_eq_some found
  have decreasing : info.ledgers.reverse.Pairwise fun left right =>
      right.ledgerId < left.ledgerId := pairwise_reverse.mpr ordered.increasing
  rw [split, pairwise_append] at decreasing
  refine ⟨member, positive, ?_⟩
  rintro pos ⟨other, otherMember, id, bound⟩
  rw [← mem_reverse, split] at otherMember
  have slotEq : pos.slot = toLex (pos.ledgerId, pos.entryId) := rfl
  rw [slotEq, Prod.Lex.toLex_le_toLex]
  obtain isLater | isHere := mem_append.mp otherMember
  · have none := empty other isLater
    simp only [Bool.not_eq_eq_eq_not, Bool.not_true, decide_eq_false_iff_not] at none
    exact absurd (Nat.zero_lt_of_lt bound) none
  · obtain rfl | isEarlier := mem_cons.mp isHere
    · exact .inr ⟨id.symm, by simp only; omega⟩
    · exact .inl (id ▸ rel_of_pairwise_cons decreasing.2.1 isEarlier)

variable {log : CommittedLog}

theorem last_of_log (accounts : Accounts info log) {entry : ManagedLedgerPosition × Item}
    (member : entry ∈ log) (greatest : ∀ pos, info.Stores pos → pos.slot ≤ entry.1.slot) :
    log.getLast? = some entry := by
  obtain ⟨before, after, split⟩ := append_of_mem member
  have increasing := accounts.increasing
  rw [split, pairwise_append] at increasing
  cases after with
  | nil => rw [split]; simp
  | cons next rest =>
    have beyond := rel_of_pairwise_cons increasing.2.1 mem_cons_self
    have nextMember : next ∈ log := by
      rw [split]
      simp
    exact absurd (greatest _ (accounts.stored nextMember)) (not_le.mpr beyond)

theorem lac_from_info_and_db_spec (accounts : Accounts info log)
    (located : Located Describes db log) :
    lacFromInfoAndDb info db = .ok (log.getLast?.map Prod.fst) := by
  unfold lacFromInfoAndDb
  cases found : info.ledgers.reverse.find? fun ledger => decide (0 < ledger.entries) with
  | none =>
    have empty : log = [] := by
      rw [eq_nil_iff_forall_not_mem]
      intro entry member
      obtain ⟨ledger, ledgerMember, _, bound⟩ := accounts.stored member
      rw [List.find?_eq_none] at found
      exact found ledger (mem_reverse.mpr ledgerMember) (by simpa using Nat.zero_lt_of_lt bound)
    rw [empty]
    rfl
  | some ledger =>
    obtain ⟨member, positive, greatest⟩ := last_nonempty_ledger accounts.ordered found
    have stores : info.Stores ⟨ledger.ledgerId, ledger.entries - 1, 0⟩ :=
      ⟨ledger, member, rfl, Nat.sub_lt positive Nat.zero_lt_one⟩
    obtain ⟨entry, entryMember, slot⟩ := (accounts.stores _).mp stores
    obtain ⟨ledgers, entries⟩ := (ManagedLedgerPosition.slot_eq_iff _ _).mp slot
    have last : log.getLast? = some entry := by
      apply last_of_log accounts entryMember
      intro pos posStores
      rw [slot]
      exact greatest pos posStores
    obtain ⟨index, key, described⟩ := located entry entryMember
    have partition : index.partition = entry.1.partition := by
      rw [described, accounts.partitions entry entryMember]
      rfl
    simp only at ledgers entries
    simp only [← ledgers, ← entries, key, last, Option.map_some, locationOf, partition]

/-- The database of a topic: nothing yet, or the metadata of a committed log with
its locations. -/
structure Persisted (name : Text) (db : Db) (info : StoredManagedLedgerInfo)
    (log : CommittedLog) : Prop where
  key : db (managedLedgerKey name) = some (.managedLedgerInfo info.encode)
  encodable : info.Encodable
  accounts : Accounts info log
  ahead : AllocatorAhead info db

variable {name : Text}

theorem Persisted.moved {new : Db} (persisted : Persisted name old info log)
    (moved : AllocatorMoved old new) : Persisted name new info log where
  key := (moved.frame _ (ledger_key_ne_allocator_key name)).trans persisted.key
  encodable := persisted.encodable
  accounts := persisted.accounts
  ahead := persisted.ahead.moved moved

/-- A database after an opening: the metadata of the ledger has been written, and
the allocator may have moved. -/
structure Rewritten (name : Text) (old : Db) (info : StoredManagedLedgerInfo) (new : Db) :
    Prop where
  key : new (managedLedgerKey name) = some (.managedLedgerInfo info.encode)
  frame : ∀ key, key ≠ ledgerIdAllocatorKey → key ≠ managedLedgerKey name →
    new key = old key
  ahead : ∀ next, nextLedgerId old = .ok next →
    ∃ later, nextLedgerId new = .ok later ∧ next ≤ later

theorem next_ledger_id_put_info (name : Text) (db : Db) (info : StoredManagedLedgerInfo) :
    nextLedgerId (db.put (managedLedgerKey name) (.managedLedgerInfo info.encode)) =
      nextLedgerId db :=
  next_ledger_id_frame (Db.put_of_ne (ledger_key_ne_allocator_key name).symm _ _)

theorem rewritten_of_moved (moved : AllocatorMoved old middle) (name : Text) (info) :
    Rewritten name old info
      (middle.put (managedLedgerKey name) (.managedLedgerInfo info.encode)) where
  key := Db.put_self _ _ _
  frame key notAllocator notLedger := by
    rw [Db.put_of_ne notLedger]
    exact moved.frame key notAllocator
  ahead next found := by
    exact moved.ahead next found

theorem Located.rewritten {describes : EntryIndex → EntryToAppend → Prop} {new : Db}
    (located : Located describes old log) (rewritten : Rewritten name old info new) :
    Located describes new log := by
  intro entry member
  obtain ⟨index, found, described⟩ := located entry member
  exact ⟨index, (rewritten.frame _ (entry_key_ne_allocator_key _ _)
    (ledger_key_ne_entry_key _ _ _).symm).trans found, described⟩

structure Opened (faults : OpenFaults) (name : Text) (db : Db) (config : ManagedLedgerConfig)
    (ledger : RocksDBManagedLedger) (after : Db) : Prop where
  stages : ∃ loaded loadedDb started startedDb rolledDb,
    loadInfo (faults.allocations.getD 0 .quiet) name db = .ok (loaded, loadedDb) ∧
    initializeInfo (faults.allocations.getD 1 .quiet) loaded loadedDb = .ok (started, startedDb) ∧
    rollFullInfo (faults.allocations.getD 2 .quiet) (configuredMax config) started startedDb =
      .ok (ledger.info, rolledDb) ∧
    after = rolledDb.put (managedLedgerKey name) (.managedLedgerInfo ledger.info.encode)
  lac : lacFromInfoAndDb ledger.info after = .ok ledger.lac
  runtime : ledger.runtime = runtimeFromInfo ledger.info
  name_eq : ledger.name = name
  max_eq : ledger.maxEntriesPerLedger = configuredMax config

variable {after : Db} {faults : OpenFaults} {config : ManagedLedgerConfig}
  {ledger : RocksDBManagedLedger}

theorem open_with_config_opened
    (opened : openWithConfig faults name db config = .ok (ledger, after)) :
    Opened faults name db config ledger after := by
  obtain ⟨⟨loaded, loadedDb⟩, load, opened⟩ := bind_eq_ok.mp opened
  obtain ⟨⟨started, startedDb⟩, start, opened⟩ := bind_eq_ok.mp opened
  obtain ⟨⟨info, rolledDb⟩, roll, opened⟩ := bind_eq_ok.mp opened
  cases fault : faults.infoPut with
  | some error => simp [fault] at opened
  | none =>
    simp only [fault] at opened
    cases confirmed : lacFromInfoAndDb info
        (rolledDb.put (managedLedgerKey name) (.managedLedgerInfo info.encode)) with
    | error error => simp [confirmed] at opened
    | ok lac =>
      simp only [confirmed, ok.injEq, Prod.mk.injEq] at opened
      obtain ⟨rfl, rfl⟩ := opened
      exact {
        stages := ⟨loaded, loadedDb, started, startedDb, rolledDb, load, start, roll, rfl⟩
        lac := confirmed
        runtime := rfl
        name_eq := rfl
        max_eq := rfl }

variable {event : AllocationEvent}

theorem roll_full_info_spec {info rolled} (accounts : Accounts info log)
    (ahead : AllocatorAhead info db)
    (outcome : rollFullInfo event maxEntries info db = .ok (rolled, after)) :
    Accounts rolled log ∧ AllocatorAhead rolled after ∧ AllocatorMoved db after ∧
      info.Extends rolled ∧ (rolled = info ∨ maxEntries ≤ info.currentLedger.entries ∧
          ∃ id, info.currentLedger.ledgerId < id ∧ rolled = info.rollOverCurrentLedger id) := by
  unfold rollFullInfo at outcome
  split_ifs at outcome with full
  · obtain ⟨⟨id, allocatedDb⟩, allocated, result⟩ := bind_eq_ok.mp outcome
    cases ok.inj result
    obtain ⟨moved, counted, larger⟩ := allocate_ok_moved allocated
    obtain ⟨next, found, below⟩ := ahead
    have beyond := below.trans_le (larger next found)
    exact ⟨accounts.roll_over beyond, ⟨id + 1, counted, by simp [StoredLedgerInfo.new]⟩, moved,
      extends_roll_over beyond, .inr ⟨by simpa [currentLedgerIsFull] using full, id, beyond, rfl⟩⟩
  · cases ok.inj outcome
    exact ⟨accounts, ahead, .refl _, .refl _, .inl rfl⟩

theorem initialize_info_ordered (ordered : info.Ordered) (db : Db)
    : initializeInfo event info db = .ok (info, db) := by
  have some : info.ledgers.isEmpty = false := by simpa using ordered.nonempty
  simp [initializeInfo, some]

theorem roll_full_info_error
    (failed : rollFullInfo event maxEntries info db = .error (error, after)) :
    AllocatorMoved db after := by
  unfold rollFullInfo at failed
  split_ifs at failed with full
  obtain here | ⟨_, _, impossible⟩ := bind_eq_error.mp failed
  · exact allocate_error_moved here
  · cases impossible

/-- The metadata that an opening starts from describes the log. -/
def Loads (event : AllocationEvent) (name : Text) (db : Db) (log : CommittedLog) : Prop :=
  match loadInfo event name db with
  | .error (_, after) => AllocatorMoved db after
  | .ok (info, after) => AllocatorMoved db after ∧ Accounts info log ∧ AllocatorAhead info after

theorem loads_missing (missing : db (managedLedgerKey name) = none) : Loads event name db [] := by
  unfold Loads
  simp only [loadInfo, missing]
  cases allocated : allocate event db with
  | error failure => exact allocate_error_moved allocated
  | ok pair =>
    have spec := allocate_ok_moved allocated
    exact ⟨spec.1, accounts_new pair.1, pair.1 + 1, spec.2.1, Nat.lt_succ_self _⟩

theorem Persisted.loads (persisted : Persisted name db info log) : Loads event name db log := by
  unfold Loads
  simp only [loadInfo, persisted.key, decode_encode persisted.encodable]
  exact ⟨.refl _, persisted.accounts, persisted.ahead⟩

section

variable (loads : Loads (faults.allocations.getD 0 .quiet) name db log)
include loads

theorem Loads.error_moved (located : Located Describes db log)
    (failed : openWithConfig faults name db config = .error (error, after)) :
    AllocatorMoved db after := by
  unfold Loads at loads
  obtain here | ⟨⟨info, loadedDb⟩, loaded, failed⟩ := bind_eq_error.mp failed
  · simp only [here] at loads
    exact loads
  simp only [loaded] at loads
  obtain ⟨moved, accounts, ahead⟩ := loads
  obtain here | ⟨⟨started, startedDb⟩, initialized, failed⟩ := bind_eq_error.mp failed
  · rw [initialize_info_ordered accounts.ordered] at here
    cases here
  rw [initialize_info_ordered accounts.ordered] at initialized
  cases ok.inj initialized
  obtain here | ⟨⟨rolled, rolledDb⟩, full, failed⟩ := bind_eq_error.mp failed
  · exact moved.trans (roll_full_info_error here)
  obtain ⟨rolledAccounts, _, rolledMoved, _, _⟩ := roll_full_info_spec accounts ahead full
  have reached := moved.trans rolledMoved
  cases fault : faults.infoPut with
  | some putError =>
    simp only [fault, Except.error.injEq, Prod.mk.injEq] at failed
    exact failed.2 ▸ reached
  | none =>
    have confirmed := lac_from_info_and_db_spec rolledAccounts
      (located.rewritten (rewritten_of_moved reached name rolled))
    simp [fault, confirmed] at failed

theorem Loads.opened (located : Located Describes db log)
    (opened : Opened faults name db config ledger after) :
    Settled ledger after log ∧ Rewritten name db ledger.info after := by
  obtain ⟨loaded, loadedDb, started, startedDb, rolledDb, load, start, roll, rfl⟩ := opened.stages
  unfold Loads at loads
  simp only [load] at loads
  obtain ⟨loadMoved, loadAccounts, loadAhead⟩ := loads
  rw [initialize_info_ordered loadAccounts.ordered] at start
  cases ok.inj start
  obtain ⟨accounts, ahead, moved, _, _⟩ := roll_full_info_spec loadAccounts loadAhead roll
  have rewritten := rewritten_of_moved (loadMoved.trans moved) name ledger.info
  have confirmed := opened.lac
  rw [lac_from_info_and_db_spec accounts (located.rewritten rewritten)] at confirmed
  refine ⟨?_, rewritten⟩
  exact {
    accounts := accounts
    runtime := opened.runtime
    lac := (ok.inj confirmed).symm
    ahead := by
      obtain ⟨next, found, below⟩ := ahead
      exact ⟨next, (next_ledger_id_put_info _ _ _).trans found, below⟩ }

end

section

variable (opened : Opened faults name db config ledger after)
include opened

theorem Opened.fresh (missing : db (managedLedgerKey name) = none) :
    (∃ id next, ledger.info = new id ∧
      nextLedgerId db = .ok next ∧ next ≤ id) ∧
      Settled ledger after [] ∧ Rewritten name db ledger.info after := by
  refine ⟨?_, (loads_missing missing).opened (by simp [Located]) opened⟩
  obtain ⟨loaded, loadedDb, started, startedDb, rolledDb, load, start, roll, _⟩ := opened.stages
  simp only [loadInfo, missing] at load
  obtain ⟨⟨id, allocatedDb⟩, allocated, result⟩ := bind_eq_ok.mp load
  cases ok.inj result
  obtain ⟨next, nextFound, larger⟩ := allocate_ok_counted allocated
  rw [initialize_info_ordered (accounts_new id).ordered] at start
  cases ok.inj start
  have room : (new id).currentLedgerIsFull (configuredMax config) =
      false := by
    have positive : 0 < configuredMax config := by
      unfold configuredMax
      omega
    simp [currentLedgerIsFull, currentLedger, new, StoredLedgerInfo.new]
    omega
  simp only [rollFullInfo, room, Bool.false_eq_true, if_false, ok.injEq, Prod.mk.injEq] at roll
  exact ⟨id, next, roll.1.symm, nextFound, larger⟩

theorem Opened.again (persisted : Persisted name db info log) (located : Located Describes db log) :
    Settled ledger after log ∧ Rewritten name db ledger.info after ∧
      info.Extends ledger.info := by
  have found := persisted.loads.opened located opened
  refine ⟨found.1, found.2, ?_⟩
  obtain ⟨loaded, loadedDb, started, startedDb, rolledDb, load, start, roll, _⟩ := opened.stages
  simp only [loadInfo, persisted.key, decode_encode persisted.encodable,
    ok.injEq, Prod.mk.injEq] at load
  obtain ⟨rfl, rfl⟩ := load
  rw [initialize_info_ordered persisted.accounts.ordered] at start
  cases ok.inj start
  exact (roll_full_info_spec persisted.accounts persisted.ahead roll).2.2.2.1

end

theorem allocate_quiet (found : nextLedgerId db = .ok next) : allocate .quiet db =
      .ok (next, db.put ledgerIdAllocatorKey (.nextLedgerId (next + 1))) := by
  simp only [allocate, AllocationEvent.quiet, otherAllocations, allocateLedgerId, found]
  rfl

theorem open_succeeds (config) (load : loadInfo .quiet name db = .ok (info, loadedDb))
    (loads : Loads .quiet name db log) (located : Located Describes db log) :
    ∃ ledger after, openWithConfig .none name db config = .ok (ledger, after) := by
  unfold Loads at loads
  simp only [load] at loads
  obtain ⟨loadMoved, loadAccounts, loadAhead⟩ := loads
  have start : initializeInfo .quiet info loadedDb = .ok (info, loadedDb) :=
    initialize_info_ordered loadAccounts.ordered loadedDb
  have roll : ∃ rolled rolledDb, rollFullInfo .quiet (configuredMax config) info loadedDb =
      .ok (rolled, rolledDb) := by
    obtain ⟨next, found, _⟩ := loadAhead
    unfold rollFullInfo
    split_ifs
    · rw [allocate_quiet found]
      exact ⟨_, _, rfl⟩
    · exact ⟨_, _, rfl⟩
  obtain ⟨rolled, rolledDb, roll⟩ := roll
  obtain ⟨accounts, _, moved, _, _⟩ := roll_full_info_spec loadAccounts loadAhead roll
  have confirmed := lac_from_info_and_db_spec accounts
    (located.rewritten (rewritten_of_moved (loadMoved.trans moved) name rolled))
  have opened : openWithConfig .none name db config = .ok ({
      name := name
      maxEntriesPerLedger := configuredMax config
      info := rolled
      lac := log.getLast?.map Prod.fst
      runtime := runtimeFromInfo rolled },
      rolledDb.put (managedLedgerKey name) (.managedLedgerInfo rolled.encode)) := by
    apply bind_eq_ok.mpr
    refine ⟨_, load, bind_eq_ok.mpr ⟨_, start, bind_eq_ok.mpr ⟨_, roll, ?_⟩⟩⟩
    simp only [OpenFaults.none, confirmed]
  exact ⟨_, _, opened⟩

theorem open_again_succeeds (config) (persisted : Persisted name db info log)
    (located : Located Describes db log) :
    ∃ ledger after, openWithConfig OpenFaults.none name db config = .ok (ledger, after) := by
  have load : loadInfo .quiet name db = .ok (info, db) := by
    simp only [loadInfo, persisted.key, decode_encode persisted.encodable]
  exact open_succeeds config load persisted.loads located

theorem open_missing_succeeds (config) (missing : db (managedLedgerKey name) = none)
    (found : nextLedgerId db = .ok next) :
    ∃ ledger after, openWithConfig .none name db config = .ok (ledger, after) := by
  have load : loadInfo .quiet name db = .ok (new next,
      db.put ledgerIdAllocatorKey (.nextLedgerId (next + 1))) := by
    simp only [loadInfo, missing, allocate_quiet found]
    rfl
  exact open_succeeds config load (loads_missing missing) (by simp [Located])

end PulsarLite.Storage.RocksDBManagedLedger
