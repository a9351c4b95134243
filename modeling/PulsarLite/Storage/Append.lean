import PulsarLite.Storage.CommittedLog

/-!
# What an append does

The assignment loop places every item in the slot written next and keeps the
metadata in step with the log; an append then either publishes all of its items
or leaves the ledger as it was.
-/

namespace PulsarLite.Storage.RocksDBManagedLedger

open Library List EntryLogStore Keys Db Prod StoredLedgerInfo
open ManagedLedgerPosition (slot slot_eq_iff slot_lt_iff)

variable {indices : List EntryIndex} {base : CommittedLog} {faults : AppendFaults}
  {entryLog : EntryLogStore} {items placed : List Item} {maxEntries : Nat}
  {ledger : RocksDBManagedLedger} {current after start : Assignment} {error : String}
  {name key : Text}

open StoredManagedLedgerInfo

def entryAt (position : ManagedLedgerPosition) (item : Item) : EntryToAppend where
  ledgerId := position.ledgerId
  entryId := position.entryId
  partition := item.partition
  metadata := item.metadata
  payload := item.payload

def AllocatorAhead (info : StoredManagedLedgerInfo) (db : Db) : Prop :=
  ∃ next, nextLedgerId db = .ok next ∧ info.currentLedger.ledgerId < next

/-- The loop of an append, with the items placed so far. -/
structure Assigning (base : CommittedLog) (start : Assignment) (placed : List Item)
    (current : Assignment) : Prop where
  accounts : Accounts current.nextInfo (base ++ current.positions.zip placed)
  partitions : List.Forall₂ (fun position item => position.partition = item.partition)
    current.positions placed
  entries : current.toAppend = zipWith entryAt current.positions placed
  curId : current.curId = current.nextInfo.currentLedger.ledgerId
  curEntries : current.curEntries = current.nextInfo.currentLedger.entries
  curSize : current.curSize = current.nextInfo.currentLedger.size
  ahead : AllocatorAhead current.nextInfo current.db
  grown : start.nextInfo.Extends current.nextInfo
  moved : AllocatorMoved start.db current.db
  newIds : ∀ id, current.nextInfo.Knows id → start.nextInfo.Knows id ∨
    ∀ next, nextLedgerId start.db = .ok next → next ≤ id
  fresh : ∀ position ∈ current.positions, start.nextInfo.writeSlot ≤ position.slot

theorem roll_if_full_cases (rolled : rollIfFull maxEntries current = .ok after) :
    current.curEntries < maxEntries ∧ after = current ∨
    ∃ id db, maxEntries ≤ current.curEntries ∧
      allocate (current.events.headD .quiet) current.db = .ok (id, db) ∧
      after = { current with
        db := db
        events := current.events.tail
        nextInfo := current.nextInfo.rollOverCurrentLedger id
        curId := id
        curEntries := 0
        curSize := 0 } := by
  unfold rollIfFull at rolled
  split_ifs at rolled with full
  · obtain ⟨⟨id, db⟩, allocated, result⟩ := bind_eq_ok.mp rolled
    exact .inr ⟨id, db, full, allocated, (Except.ok.inj result).symm⟩
  · exact .inl ⟨not_le.mp full, (Except.ok.inj rolled).symm⟩

section

variable (assigning : Assigning base start placed current)
include assigning

theorem Assigning.roll
    (rolled : rollIfFull maxEntries current = .ok after) : Assigning base start placed after := by
  obtain ⟨_, rfl⟩ | ⟨id, db, _, allocated, rfl⟩ := roll_if_full_cases rolled
  · exact assigning
  obtain ⟨moved, counted, larger⟩ := allocate_ok_moved allocated
  obtain ⟨next, nextFound, below⟩ := assigning.ahead
  have beyond : current.nextInfo.currentLedger.ledgerId < id :=
    below.trans_le (larger next nextFound)
  exact {
    accounts := assigning.accounts.roll_over beyond
    partitions := assigning.partitions
    entries := assigning.entries
    curId := by simp [StoredLedgerInfo.new]
    curEntries := by simp [StoredLedgerInfo.new]
    curSize := by simp [StoredLedgerInfo.new]
    ahead := ⟨id + 1, counted, by simp [StoredLedgerInfo.new]⟩
    grown := assigning.grown.trans (extends_roll_over beyond)
    moved := assigning.moved.trans moved
    newIds := by
      rintro other ⟨ledger, member, same⟩
      obtain old | rfl := mem_roll_over.mp member
      · exact assigning.newIds other ⟨ledger, old, same⟩
      · right
        intro first firstFound
        obtain ⟨later, laterFound, above⟩ := assigning.moved.ahead first firstFound
        exact same ▸ above.trans (larger later laterFound)
    fresh := assigning.fresh }

theorem Assigning.place (item : Item) :
    Assigning base start (placed ++ [item]) (placeItem current item) := by
  have sameLength := assigning.partitions.length_eq
  have place : (nextPlace current item).slot = current.nextInfo.writeSlot := by
    unfold nextPlace slot writeSlot
    rw [assigning.curId, assigning.curEntries]
  exact {
    accounts := by
      have added := assigning.accounts.add_entry item place rfl
      simp only [placeItem]
      rw [zip_append sameLength, ← append_assoc]
      exact added
    partitions := by
      exact rel_append assigning.partitions (List.Forall₂.cons rfl List.Forall₂.nil)
    entries := by
      simp only [placeItem]
      rw [zipWith_append sameLength, assigning.entries]
      rfl
    curId := assigning.curId.trans (congrArg ledgerId
      (current_add_entry current.nextInfo (messageSize item))).symm
    curEntries := (congrArg (· + 1) assigning.curEntries).trans (congrArg StoredLedgerInfo.entries
        (current_add_entry current.nextInfo (messageSize item))).symm
    curSize := (congrArg (· + messageSize item) assigning.curSize).trans
      (congrArg StoredLedgerInfo.size (current_add_entry current.nextInfo (messageSize item))).symm
    ahead := by
      obtain ⟨next, found, below⟩ := assigning.ahead
      refine ⟨next, found, ?_⟩
      exact (congrArg ledgerId
        (current_add_entry current.nextInfo (messageSize item))).trans_lt below
    grown := assigning.grown.trans (extends_add_entry assigning.accounts.ordered _)
    moved := assigning.moved
    newIds id known := by
      apply assigning.newIds id
      exact (knows_add_entry assigning.accounts.ordered (messageSize item) id).mp known
    fresh position member := by
      obtain old | new := mem_append.mp member
      · exact assigning.fresh position old
      · rw [mem_singleton.mp new, place]
        exact assigning.grown.advances }

theorem Assigning.item {item : Item} (assigned : assignItem maxEntries current item = .ok after) :
    Assigning base start (placed ++ [item]) after := by
  obtain ⟨rolled, before, later⟩ := bind_eq_ok.mp assigned
  exact ((assigning.roll before).place item).roll later

end

theorem assign_items_assigning (assigning : Assigning base start [] start)
    (assigned : assignItems maxEntries start items = .ok after) :
    Assigning base start items after :=
  foldlM_invariant (fun _ _ _ _ holds taken => holds.item taken) items [] start after assigning
    assigned

theorem roll_if_full_moved (rolled : rollIfFull maxEntries current = .ok after) :
    AllocatorMoved current.db after.db := by
  obtain ⟨_, rfl⟩ | ⟨id, db, _, allocated, rfl⟩ := roll_if_full_cases rolled
  · exact .refl _
  · exact (allocate_ok_moved allocated).1

theorem roll_if_full_error {db : Db} (failed : rollIfFull maxEntries current = .error (error, db)) :
    AllocatorMoved current.db db := by
  unfold rollIfFull at failed
  split_ifs at failed with full
  obtain here | ⟨pair, _, impossible⟩ := bind_eq_error.mp failed
  · exact allocate_error_moved here
  · cases impossible

theorem assign_item_moved {item : Item}
    (assigned : assignItem maxEntries current item = .ok after) :
    AllocatorMoved current.db after.db := by
  obtain ⟨rolled, before, later⟩ := bind_eq_ok.mp assigned
  have placed : AllocatorMoved rolled.db after.db :=
    @roll_if_full_moved maxEntries (placeItem rolled item) after later
  exact (roll_if_full_moved before).trans placed

theorem assign_items_error {db : Db}
    (failed : assignItems maxEntries start items = .error (error, db)) :
    AllocatorMoved start.db db := by
  obtain ⟨item, last, moved, here⟩ := foldlM_failure
    (fun _ _ _ moved taken => AllocatorMoved.trans moved (assign_item_moved taken)) items start
    (error, db) (AllocatorMoved.refl start.db) failed
  obtain first | ⟨rolled, before, second⟩ := bind_eq_error.mp here
  · exact moved.trans (roll_if_full_error first)
  · have placed : AllocatorMoved rolled.db db :=
      @roll_if_full_error maxEntries (placeItem rolled item) error db second
    exact (moved.trans (roll_if_full_moved before)).trans placed

/-- An append that did not go through: the ledger is what it was, the allocator
may have moved, and the entry log may have seen a batch. -/
structure Refused (faults : AppendFaults) (ledger : RocksDBManagedLedger) (db : Db)
    (entryLog : EntryLogStore) (outcome : AppendOutcome) : Prop where
  failed : ∃ error, outcome.result = .error error
  ledger_eq : outcome.ledger = ledger
  moved : AllocatorMoved db outcome.db
  entryLog_eq : ∃ entries, outcome.entryLog = entryLog ∨
    outcome.entryLog = (appendBatch faults.entryLog entryLog entries).2

structure Committed (faults : AppendFaults) (ledger : RocksDBManagedLedger) (db : Db)
    (entryLog : EntryLogStore) (items : List Item) (assigned : Assignment)
    (indices : List EntryIndex) (outcome : AppendOutcome) : Prop where
  assignment : assignItems ledger.maxEntriesPerLedger
    (startAssignment ledger db faults.allocations) items = .ok assigned
  written : (appendBatch faults.entryLog entryLog assigned.toAppend).1 = .ok indices
  result_eq : outcome.result = .ok assigned.positions
  ledger_eq : outcome.ledger = publish ledger assigned
  db_eq : outcome.db = commit ledger.name assigned indices
  entryLog_eq : outcome.entryLog =
    (appendBatch faults.entryLog entryLog assigned.toAppend).2

theorem Refused.extends {db : Db} {outcome} (refused : Refused faults ledger db entryLog outcome) :
    Files.Extends entryLog.files outcome.entryLog.files := by
  obtain ⟨entries, same | written⟩ := refused.entryLog_eq
  · rw [same]
    exact Files.Extends.refl _
  · rw [written]
    exact append_batch_extends _ _ _

theorem Committed.extends {db : Db} {assigned outcome}
    (committed : Committed faults ledger db entryLog items assigned indices outcome) :
    Files.Extends entryLog.files outcome.entryLog.files := by
  rw [committed.entryLog_eq]
  exact append_batch_extends _ _ _

theorem Committed.holds {db : Db} {assigned outcome}
    (committed : Committed faults ledger db entryLog items assigned indices outcome)
    (aligned : EntryLogStore.Aligned entryLog) :
    List.Forall₂ (EntryLogStore.Holds outcome.entryLog) indices assigned.toAppend := by
  rw [committed.entryLog_eq]
  exact append_batch_holds aligned committed.written

theorem assign_items_moved (assigned : assignItems maxEntries start items = .ok after) :
    AllocatorMoved start.db after.db := by
  have step (done : List Item) (item : Item) (current next : Assignment) :
      AllocatorMoved start.db current.db → assignItem maxEntries current item = .ok next →
        AllocatorMoved start.db next.db :=
    fun moved taken => moved.trans (assign_item_moved taken)
  exact foldlM_invariant step items [] start after (.refl _) assigned

theorem add_entries_cases (faults ledger) (db : Db) (entryLog) (nonempty : items ≠ []) :
    Refused faults ledger db entryLog
        (addEntriesWithPartitionAndMetadata faults ledger db entryLog items) ∨
      ∃ assigned indices, Committed faults ledger db entryLog items assigned indices
        (addEntriesWithPartitionAndMetadata faults ledger db entryLog items) := by
  have some : items.isEmpty = false := by simpa using nonempty
  unfold addEntriesWithPartitionAndMetadata
  simp only [some, Bool.false_eq_true, if_false]
  cases assignment : assignItems ledger.maxEntriesPerLedger
      (startAssignment ledger db faults.allocations) items with
  | error failure =>
    exact .inl ⟨⟨failure.1, rfl⟩, rfl, assign_items_error assignment, [], .inl rfl⟩
  | ok assigned =>
    have moved : AllocatorMoved db assigned.db := assign_items_moved assignment
    simp only [writeAssigned]
    cases written : (appendBatch faults.entryLog entryLog assigned.toAppend).1 with
    | error error => exact .inl ⟨⟨error, rfl⟩, rfl, moved, assigned.toAppend, .inr rfl⟩
    | ok indices =>
      by_cases sizes : indices.length ≠ assigned.positions.length
      · simp only [if_pos sizes]
        exact .inl ⟨⟨_, rfl⟩, rfl, moved, assigned.toAppend, .inr rfl⟩
      simp only [if_neg sizes]
      cases faults.dbWrite with
      | some error =>
        exact .inl ⟨⟨error, rfl⟩, rfl, moved, assigned.toAppend, .inr rfl⟩
      | none => exact .inr ⟨assigned, indices, assignment, written, rfl, rfl, rfl, rfl⟩

theorem add_entries_aligned (traceless : EntryLogStore.WriteFaults.Traceless faults.entryLog)
    (aligned : EntryLogStore.Aligned entryLog) (ledger) (db : Db) (items : List Item) :
    EntryLogStore.Aligned
      (addEntriesWithPartitionAndMetadata faults ledger db entryLog items).entryLog := by
  by_cases empty : items = []
  · simpa [empty, addEntriesWithPartitionAndMetadata] using aligned
  rcases add_entries_cases faults ledger db entryLog empty with
    refused | ⟨assigned, indices, committed⟩
  · obtain ⟨entries, same | written⟩ := refused.entryLog_eq
    · rw [same]
      exact aligned
    · rw [written]
      exact append_batch_aligned aligned traceless entries
  · rw [committed.entryLog_eq]
    exact append_batch_aligned aligned traceless _

/-- A ledger between appends, with the log it has committed. -/
structure Settled (ledger : RocksDBManagedLedger) (db : Db) (log : CommittedLog) : Prop where
  accounts : Accounts ledger.info log
  runtime : ledger.runtime = runtimeFromInfo ledger.info
  lac : ledger.lac = log.getLast?.map fst
  ahead : AllocatorAhead ledger.info db

variable {db : Db} {log : CommittedLog}

theorem AllocatorAhead.moved {info} {old new : Db} (ahead : AllocatorAhead info old)
    (moved : AllocatorMoved old new) : AllocatorAhead info new := by
  obtain ⟨next, found, below⟩ := ahead
  obtain ⟨later, laterFound, above⟩ := moved.ahead next found
  exact ⟨later, laterFound, below.trans_le above⟩

section

variable (settled : Settled ledger db log)
include settled

theorem Settled.moved {after : Db} (moved : AllocatorMoved db after) :
    Settled ledger after log where
  accounts := settled.accounts
  runtime := settled.runtime
  lac := settled.lac
  ahead := settled.ahead.moved moved

theorem Settled.knows_lt {next id : Nat} (found : nextLedgerId db = .ok next)
    (known : ledger.info.Knows id) : id < next := by
  obtain ⟨later, laterFound, below⟩ := settled.ahead
  rw [found] at laterFound
  cases laterFound
  obtain ⟨stored, member, same⟩ := known
  obtain rfl | before := settled.accounts.ordered.le_current member
  · omega
  · omega

theorem Settled.assigning (events) :
    Assigning log (startAssignment ledger db events) [] (startAssignment ledger db events) where
  accounts := by simpa [startAssignment] using settled.accounts
  partitions := List.Forall₂.nil
  entries := rfl
  curId := by simp [startAssignment, settled.runtime, runtimeFromInfo]
  curEntries := by simp [startAssignment, settled.runtime, runtimeFromInfo]
  curSize := by simp [startAssignment, settled.runtime, runtimeFromInfo]
  ahead := settled.ahead
  grown := .refl _
  moved := .refl _
  newIds _ known := .inl known
  fresh := by simp [startAssignment]

end

theorem put_locations_other (pairs : List (ManagedLedgerPosition × EntryIndex)) (db : Db)
    (different : ∀ pair ∈ pairs, key ≠ managedEntryKey pair.1.ledgerId pair.1.entryId) :
    putLocations db pairs key = db key := by
  induction pairs generalizing db with
  | nil => rfl
  | cons pair pairs ih =>
    rw [putLocations, ih _ fun other member => different other (mem_cons_of_mem _ member)]
    exact put_of_ne (different pair mem_cons_self) _ _

theorem put_locations_self (pairs : List (ManagedLedgerPosition × EntryIndex)) (db : Db)
    (distinct : pairs.Pairwise fun left right => left.1.slot < right.1.slot)
    {pair : ManagedLedgerPosition × EntryIndex} (member : pair ∈ pairs) :
    putLocations db pairs (managedEntryKey pair.1.ledgerId pair.1.entryId) =
      some (.entryLocation (locationOf pair.2)) := by
  induction pairs generalizing db with
  | nil => simp at member
  | cons first pairs ih =>
    rw [putLocations]
    rw [pairwise_cons] at distinct
    obtain rfl | later := mem_cons.mp member
    · rw [put_locations_other pairs]
      · exact put_self _ _ _
      intro other otherMember same
      obtain ⟨ledgers, entries⟩ := managed_entry_key_inj same
      have before := distinct.1 other otherMember
      rw [slot_lt_iff] at before
      omega
    · exact ih _ distinct.2 later

theorem commit_other {assigned : Assignment} (notLedger : key ≠ managedLedgerKey name)
    (notEntry : ∀ position ∈ assigned.positions,
      key ≠ managedEntryKey position.ledgerId position.entryId) :
    commit name assigned indices key = assigned.db key := by
  unfold commit
  rw [put_of_ne notLedger, put_locations_other]
  intro pair member
  exact notEntry pair.1 (of_mem_zip member).1

theorem next_ledger_id_commit (name assigned indices) :
    nextLedgerId (commit name assigned indices) = nextLedgerId assigned.db :=
  next_ledger_id_frame (commit_other (ledger_key_ne_allocator_key name).symm
    fun _ _ => (entry_key_ne_allocator_key _ _).symm)

theorem commit_ledger_key (name assigned indices) :
    commit name assigned indices (managedLedgerKey name) =
      some (.managedLedgerInfo assigned.nextInfo.encode) :=
  put_self _ _ _

theorem get_last_append_zip {positions}
    (sameLength : positions.length = items.length) (nonempty : positions ≠ []) :
    positions.getLast? = (log ++ positions.zip items).getLast?.map fst := by
  have zipped : (positions.zip items).map fst = positions := map_fst_zip sameLength.le
  have some : positions.zip items ≠ [] := by
    intro empty
    rw [empty] at zipped
    exact nonempty zipped.symm
  rw [getLast?_append_of_ne_nil _ some, ← getLast?_map, zipped]

variable {assigned : Assignment} {outcome : AppendOutcome}

theorem Committed.assigning (settled : Settled ledger db log)
    (committed : Committed faults ledger db entryLog items assigned indices outcome) :
    Assigning log (startAssignment ledger db faults.allocations) items assigned :=
  assign_items_assigning (settled.assigning faults.allocations) committed.assignment

theorem Committed.settled (settled : Settled ledger db log) (nonempty : items ≠ [])
    (committed : Committed faults ledger db entryLog items assigned indices outcome) :
    Settled outcome.ledger outcome.db (log ++ assigned.positions.zip items) := by
  have assigning := committed.assigning settled
  have sameLength := assigning.partitions.length_eq
  have some : assigned.positions ≠ [] := by
    intro empty
    rw [empty] at sameLength
    exact nonempty (length_eq_zero_iff.mp sameLength.symm)
  rw [committed.ledger_eq, committed.db_eq]
  exact {
    accounts := assigning.accounts
    runtime := by
      simp only [publish, runtimeFromInfo, assigning.curId, assigning.curEntries, assigning.curSize]
    lac := get_last_append_zip sameLength some
    ahead := by
      obtain ⟨next, found, below⟩ := assigning.ahead
      exact ⟨next, (next_ledger_id_commit _ _ _).trans found, below⟩ }

theorem Assigning.positions_increasing (assigning : Assigning log start items assigned) :
    assigned.positions.Pairwise fun left right => left.slot < right.slot := by
  have increasing := (pairwise_append.mp assigning.accounts.increasing).2.1
  have zipped : (assigned.positions.zip items).map fst = assigned.positions :=
    map_fst_zip assigning.partitions.length_eq.le
  rw [← zipped, pairwise_map]
  exact increasing

theorem Assigning.placed_stored (assigning : Assigning log start items assigned) {position}
    (member : position ∈ assigned.positions) : assigned.nextInfo.Stores position := by
  have zipped : (assigned.positions.zip items).map fst = assigned.positions :=
    map_fst_zip assigning.partitions.length_eq.le
  rw [← zipped] at member
  obtain ⟨pair, pairMember, rfl⟩ := mem_map.mp member
  exact assigning.accounts.stored (mem_append_right _ pairMember)

/-- Every message of the log has its location in the database, under an index
that describes it. -/
def Located (describes : EntryIndex → EntryToAppend → Prop) (db : Db) (log : CommittedLog) : Prop :=
  ∀ entry ∈ log, ∃ index,
    db (managedEntryKey entry.1.ledgerId entry.1.entryId) =
      some (.entryLocation (locationOf index)) ∧ describes index (entryAt entry.1 entry.2)

variable {describes : EntryIndex → EntryToAppend → Prop}

theorem Located.weaken {weaker : EntryIndex → EntryToAppend → Prop}
    (located : Located describes db log)
    (implies : ∀ index entry, describes index entry → weaker index entry) :
    Located weaker db log := by
  intro entry member
  obtain ⟨index, found, described⟩ := located entry member
  exact ⟨index, found, implies _ _ described⟩

theorem Located.moved {after : Db} (located : Located describes db log)
    (moved : AllocatorMoved db after) : Located describes after log := by
  intro entry member
  obtain ⟨index, found, described⟩ := located entry member
  exact ⟨index, (moved.frame _ (entry_key_ne_allocator_key _ _)).trans found, described⟩

theorem zip_described (positions items indices)
    (described : List.Forall₂ describes indices (zipWith entryAt positions items)) :
    ∀ entry ∈ positions.zip items, ∃ index, (entry.1, index) ∈ positions.zip indices ∧
      describes index (entryAt entry.1 entry.2) := by
  induction positions generalizing items indices with
  | nil => simp
  | cons position positions ih =>
    cases items with
    | nil => simp
    | cons item items =>
      cases described with
      | cons first rest =>
        intro entry member
        obtain rfl | later := mem_cons.mp member
        · exact ⟨_, mem_cons_self, first⟩
        · obtain ⟨index, found, holds⟩ := ih items _ rest entry later
          exact ⟨index, mem_cons_of_mem _ found, holds⟩

theorem Committed.located (settled : Settled ledger db log)
    (committed : Committed faults ledger db entryLog items assigned indices outcome)
    (located : Located describes db log)
    (described : List.Forall₂ describes indices assigned.toAppend) :
    Located describes outcome.db (log ++ assigned.positions.zip items) := by
  have assigning := committed.assigning settled
  rw [committed.db_eq]
  intro entry member
  have notLedger := (ledger_key_ne_entry_key ledger.name entry.1.ledgerId entry.1.entryId).symm
  obtain old | new := mem_append.mp member
  · obtain ⟨index, found, holds⟩ := located.moved assigning.moved entry old
    refine ⟨index, ?_, holds⟩
    rw [commit_other notLedger]
    · exact found
    intro position positionMember same
    obtain ⟨ledgers, entries⟩ := managed_entry_key_inj same
    have before := settled.accounts.below old
    have after := assigning.fresh position positionMember
    have slots : entry.1.slot = position.slot := (slot_eq_iff _ _).mpr ⟨ledgers, entries⟩
    exact absurd (before.trans_le after) (slots ▸ lt_irrefl _)
  rw [assigning.entries] at described
  obtain ⟨index, paired, holds⟩ := zip_described _ _ _ described entry new
  refine ⟨index, ?_, holds⟩
  unfold commit
  rw [put_of_ne notLedger]
  have sameLength : assigned.positions.length ≤ indices.length := by
    have pairs := described.length_eq
    have items := assigning.partitions.length_eq
    rw [length_zipWith] at pairs
    omega
  have increasing : (assigned.positions.zip indices).Pairwise fun left right =>
      left.1.slot < right.1.slot := by
    have zipped : (assigned.positions.zip indices).map fst = assigned.positions :=
      map_fst_zip sameLength
    have positions := assigning.positions_increasing
    rw [← zipped, pairwise_map] at positions
    exact positions
  exact put_locations_self _ _ increasing paired

end PulsarLite.Storage.RocksDBManagedLedger
