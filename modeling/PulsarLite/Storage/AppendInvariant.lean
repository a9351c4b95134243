import PulsarLite.Storage.Opening

/-!
# The append invariant

Batches appended one after the other to a ledger opened fresh. After each batch
the published metadata, the runtime cursor and the last confirmed position agree
with each other and with the entries in the database, and a batch that fails
leaves all three alone.
-/

namespace PulsarLite.Storage.AppendInvariant

open Library Keys EntryLogStore List RocksDBManagedLedger ManagedLedgerPosition

variable {items placed : List Item} {maxEntries next : Nat} {base : CommittedLog}
  {start after current assigned : Assignment}

open StoredManagedLedgerInfo RocksDBManagedLedger

structure AppendState where
  ledger : RocksDBManagedLedger
  db : Db
  entryLog : EntryLogStore
  returned : CommittedLog

section

variable (faults : AppendFaults) (items : List Item) (state : AppendState)

def appendOutcome : AppendOutcome :=
  addEntriesWithPartitionAndMetadata faults state.ledger state.db state.entryLog items

def append : AppendState where
  ledger := (appendOutcome faults items state).ledger
  db := (appendOutcome faults items state).db
  entryLog := (appendOutcome faults items state).entryLog
  returned := match (appendOutcome faults items state).result with
    | .ok positions => state.returned ++ positions.zip items
    | .error _ => state.returned

end

def Unused (db : Db) : Prop :=
  ∀ next, nextLedgerId db = .ok next → ∀ ledgerId entryId, next ≤ ledgerId →
    db (managedEntryKey ledgerId entryId) = none

inductive Reachable (maxEntries : Nat) : AppendState → Prop
  | opened (faults name) (db after : Db) (ledger entryLog) (unused : Unused db)
      (missing : db (managedLedgerKey name) = none)
      (opened : openWithConfig faults name db { maxEntriesPerLedger := some maxEntries } =
        .ok (ledger, after)) :
      Reachable maxEntries
        { ledger := ledger, db := after, entryLog := entryLog, returned := [] }
  | batch (faults items state) (before : Reachable maxEntries state) :
      Reachable maxEntries (append faults items state)

/-- Every ledger but the last is full, and the last one has room. -/
structure Packed (maxEntries : Nat) (info : StoredManagedLedgerInfo) : Prop where
  full : ∀ ledger ∈ info.ledgers.dropLast, ledger.entries = maxEntries
  room : info.currentLedger.entries < maxEntries

variable (info : StoredManagedLedgerInfo)

theorem drop_last_add_entry (size : Nat) :
    (info.addEntry size).ledgers.dropLast = info.ledgers.dropLast := by
  simp [addEntry, modifyCurrentLedger]

theorem drop_last_roll_over (id : Nat) :
    (info.rollOverCurrentLedger id).ledgers.dropLast = info.ledgers := by
  simp [rollOverCurrentLedger]

/-- One item fills the last ledger by one entry and, if that was the last place,
opens the next ledger at once. -/
theorem packed_assign_item {item : Item}
    (assigning : Assigning base start placed current) (packed : Packed maxEntries current.nextInfo)
    (assigned : assignItem maxEntries current item = .ok after) :
    Packed maxEntries after.nextInfo := by
  obtain ⟨rolled, before, later⟩ := bind_eq_ok.mp assigned
  have noRoll : rolled = current := by
    obtain ⟨_, same⟩ | ⟨_, _, full, _, _⟩ := roll_if_full_cases before
    · exact same
    · rw [assigning.curEntries] at full
      exact absurd packed.room (not_lt.mpr full)
  subst noRoll
  have placedInfo : (placeItem rolled item).nextInfo =
      rolled.nextInfo.addEntry (messageSize item) := rfl
  have entries : (placeItem rolled item).curEntries = rolled.nextInfo.currentLedger.entries + 1 :=
    congrArg (· + 1) assigning.curEntries
  obtain ⟨room, rfl⟩ | ⟨id, db, full, _, rfl⟩ := roll_if_full_cases later
  · constructor
    · rw [placedInfo, drop_last_add_entry]
      exact packed.full
    · rw [entries] at room
      rw [placedInfo, current_add_entry]
      exact room
  have exactly : rolled.nextInfo.currentLedger.entries + 1 = maxEntries := by
    have room := packed.room
    omega
  constructor
  · intro ledger member
    rw [drop_last_roll_over, placedInfo] at member
    obtain early | rfl := mem_add_entry.mp member
    · exact packed.full ledger early
    · exact exactly
  · rw [current_roll_over]
    simp only [StoredLedgerInfo.new]
    omega

theorem packed_assign_items (assigning : Assigning base start [] start)
    (packed : Packed maxEntries start.nextInfo)
    (assigned : assignItems maxEntries start items = .ok after) :
    Packed maxEntries after.nextInfo := by
  have step (placed : List Item) (item : Item) (current next : Assignment) :
      Assigning base start placed current ∧ Packed maxEntries current.nextInfo →
        assignItem maxEntries current item = .ok next →
          Assigning base start (placed ++ [item]) next ∧ Packed maxEntries next.nextInfo :=
    fun holds taken => ⟨holds.1.item taken, packed_assign_item holds.1 holds.2 taken⟩
  exact (foldlM_invariant step items [] start after ⟨assigning, packed⟩ assigned).2

structure Running (maxEntries : Nat) (state : AppendState) : Prop where
  settled : Settled state.ledger state.db state.returned
  packed : Packed maxEntries state.ledger.info
  located : Located Describes state.db state.returned
  nothingElse : ∀ pos, state.ledger.info.Knows pos.ledgerId →
    state.db (managedEntryKey pos.ledgerId pos.entryId) ≠ none →
      state.ledger.info.Stores pos
  unused : Unused state.db
  limit : state.ledger.maxEntriesPerLedger = maxEntries

theorem Unused.later {old new : Db} (unused : Unused old) (found : nextLedgerId old = .ok next)
    (ahead : ∃ later, nextLedgerId new = .ok later ∧ next ≤ later)
    (frame : ∀ later ledgerId entryId, nextLedgerId new = .ok later → later ≤ ledgerId →
      new (managedEntryKey ledgerId entryId) = old (managedEntryKey ledgerId entryId)) :
    Unused new := by
  intro later laterFound ledgerId entryId beyond
  obtain ⟨reached, reachedFound, above⟩ := ahead
  rw [laterFound] at reachedFound
  cases reachedFound
  rw [frame later ledgerId entryId laterFound beyond]
  exact unused next found ledgerId entryId (above.trans beyond)

theorem running_opened (positive : 1 ≤ maxEntries) {faults : OpenFaults} {name : Text}
    {db after : Db} {ledger : RocksDBManagedLedger}
    (entryLog : EntryLogStore) (unused : Unused db)
    (missing : db (managedLedgerKey name) = none)
    (opened : openWithConfig faults name db { maxEntriesPerLedger := some maxEntries } =
      .ok (ledger, after)) :
    Running maxEntries { ledger := ledger, db := after, entryLog := entryLog, returned := [] } := by
  have stages := open_with_config_opened opened
  obtain ⟨⟨id, next, infoEq, found, larger⟩, settled, rewritten⟩ := stages.fresh missing
  have entries ledgerId entryId : after (managedEntryKey ledgerId entryId) =
      db (managedEntryKey ledgerId entryId) :=
    rewritten.frame _ (entry_key_ne_allocator_key _ _) (ledger_key_ne_entry_key _ _ _).symm
  exact {
    settled := settled
    packed := by
      rw [infoEq]
      refine ⟨by simp [StoredManagedLedgerInfo.new], ?_⟩
      simp only [StoredManagedLedgerInfo.new, currentLedger, StoredLedgerInfo.new,
        getLastD_cons, getLastD_nil]
      omega
    located := by simp [Located]
    nothingElse pos known present := by
      obtain ⟨only, member, same⟩ := known
      rw [infoEq, StoredManagedLedgerInfo.new, mem_singleton] at member
      simp only at present
      rw [entries] at present
      refine absurd (unused next found pos.ledgerId pos.entryId ?_) present
      rw [← same, member]
      exact larger
    unused := unused.later found (rewritten.ahead next found)
      fun _ ledgerId entryId _ _ => entries ledgerId entryId
    limit := by
      rw [stages.max_eq]
      exact max_eq_left positive }

variable {state : AppendState}

theorem running_refused {faults : AppendFaults} (running : Running maxEntries state)
    (refused : Refused faults state.ledger state.db state.entryLog
      (appendOutcome faults items state)) :
    Running maxEntries (append faults items state) := by
  obtain ⟨error, failed⟩ := refused.failed
  have returned : (append faults items state).returned = state.returned := by
    simp [append, failed]
  have ledger : (append faults items state).ledger = state.ledger := refused.ledger_eq
  have moved : AllocatorMoved state.db (append faults items state).db := refused.moved
  obtain ⟨next, found, _⟩ := running.settled.ahead
  exact {
    settled := by
      rw [returned, ledger]
      exact running.settled.moved moved
    packed := ledger ▸ running.packed
    located := by
      rw [returned]
      exact running.located.moved moved
    nothingElse pos known present := by
      rw [ledger] at known ⊢
      rw [moved.frame _ (entry_key_ne_allocator_key _ _)] at present
      exact running.nothingElse pos known present
    unused := running.unused.later found (moved.ahead next found)
      fun _ _ _ _ _ => moved.frame _ (entry_key_ne_allocator_key _ _)
    limit := ledger ▸ running.limit }

theorem running_committed {faults : AppendFaults} {indices : List EntryIndex}
    (nonempty : items ≠ [])
    (running : Running maxEntries state)
    (committed : Committed faults state.ledger state.db state.entryLog items assigned indices
      (appendOutcome faults items state)) :
    Running maxEntries (append faults items state) := by
  have returned : (append faults items state).returned =
      state.returned ++ assigned.positions.zip items := by
    simp [append, committed.result_eq]
  have assigning := committed.assigning running.settled
  have settled := committed.settled running.settled nonempty
  have info : (append faults items state).ledger.info = assigned.nextInfo :=
    congrArg info committed.ledger_eq
  have db : (append faults items state).db = commit state.ledger.name assigned indices :=
    committed.db_eq
  obtain ⟨next, found, _⟩ := running.settled.ahead
  -- The keys of the batch are exactly the positions it was given.
  have entries (pos : ManagedLedgerPosition) : ¬ (∃ position ∈ assigned.positions,
      position.slot = pos.slot) → (append faults items state).db
        (managedEntryKey pos.ledgerId pos.entryId) =
          state.db (managedEntryKey pos.ledgerId pos.entryId) := by
    intro other
    rw [db, commit_other (ledger_key_ne_entry_key _ _ _).symm]
    · exact assigning.moved.frame _ (entry_key_ne_allocator_key _ _)
    · intro position member same
      obtain ⟨ledgers, ids⟩ := managed_entry_key_inj same
      exact other ⟨position, member, (slot_eq_iff _ _).mpr ⟨ledgers.symm, ids.symm⟩⟩
  exact {
    settled := by
      rw [returned]
      exact settled
    packed := by
      rw [info]
      have limit := running.limit
      exact packed_assign_items (running.settled.assigning faults.allocations) running.packed
        (limit ▸ committed.assignment)
    located := by
      rw [returned]
      exact committed.located running.settled running.located
        (append_batch_described committed.written)
    nothingElse pos known present := by
      rw [info] at known ⊢
      by_cases placed : ∃ position ∈ assigned.positions, position.slot = pos.slot
      · obtain ⟨position, member, same⟩ := placed
        exact (assigning.placed_stored member).of_slot same
      · rw [entries pos placed] at present
        obtain old | new := assigning.newIds pos.ledgerId known
        · exact assigning.grown.keeps pos (running.nothingElse pos old present)
        · exact absurd (running.unused next found _ _ (new next found)) present
    unused := by
      apply running.unused.later found
      · rw [db, next_ledger_id_commit]
        exact assigning.moved.ahead next found
      intro later ledgerId entryId laterFound beyond
      apply entries ⟨ledgerId, entryId, 0⟩
      rintro ⟨position, member, same⟩
      obtain ⟨ledger, ledgerMember, id⟩ := (assigning.placed_stored member).knows
      obtain ⟨reached, reachedFound, below⟩ := assigning.ahead
      rw [db, next_ledger_id_commit, reachedFound] at laterFound
      cases laterFound
      obtain ⟨ledgers, _⟩ := (slot_eq_iff _ _).mp same
      obtain rfl | before := assigning.accounts.ordered.le_current ledgerMember
      all_goals
        simp only at ledgers
        omega
    limit := (congrArg maxEntriesPerLedger committed.ledger_eq).trans running.limit }

theorem running_reachable (positive : 1 ≤ maxEntries) (reachable : Reachable maxEntries state) :
    Running maxEntries state := by
  induction reachable with
  | opened faults name db after ledger entryLog unused missing opened =>
    exact running_opened positive entryLog unused missing opened
  | batch faults items state before ih =>
    by_cases empty : items = []
    · have unchanged : append faults items state = state := by
        simp [append, appendOutcome, addEntriesWithPartitionAndMetadata, empty]
      rw [unchanged]
      exact ih
    · rcases add_entries_cases faults state.ledger state.db state.entryLog empty with
        refused | ⟨assigned, indices, committed⟩
      · exact running_refused ih refused
      · exact running_committed empty ih committed

/-- The three published views, the entries in the database and the returned
positions agree. -/
structure Consistent (maxEntries : Nat) (state : AppendState) : Prop where
  increasingIds : state.ledger.info.ledgers.Pairwise fun left right =>
    left.ledgerId < right.ledgerId
  full : ∀ ledger ∈ state.ledger.info.ledgers.dropLast, ledger.entries = maxEntries
  entryKeys : ∀ ledger ∈ state.ledger.info.ledgers, ∀ entryId,
    (∃ location, state.db (managedEntryKey ledger.ledgerId entryId) =
      some (.entryLocation location)) ↔ entryId < ledger.entries
  entryIds : ∀ ledger ∈ state.ledger.info.ledgers,
    (inLedger state.returned ledger.ledgerId).map (fun entry => entry.1.entryId) =
      range ledger.entries
  counts : ∀ ledger ∈ state.ledger.info.ledgers,
    ledger.entries = (inLedger state.returned ledger.ledgerId).length
  sizes : ∀ ledger ∈ state.ledger.info.ledgers,
    ledger.size = ((inLedger state.returned ledger.ledgerId).map fun entry =>
      entry.2.metadata.length + entry.2.payload.length).sum
  last : ∃ ledger, state.ledger.info.ledgers.getLast? = some ledger ∧ state.ledger.runtime = {
    currentLedgerId := ledger.ledgerId
    currentLedgerEntries := ledger.entries
    currentLedgerSize := ledger.size }
  lac : state.ledger.lac = state.returned.getLast?.map Prod.fst
  increasing : state.returned.Pairwise fun left right => left.1.slot < right.1.slot

theorem Running.entry_keys (running : Running maxEntries state) {ledger}
    (member : ledger ∈ state.ledger.info.ledgers) (entryId : Nat) :
    (∃ location, state.db (managedEntryKey ledger.ledgerId entryId) =
      some (.entryLocation location)) ↔ entryId < ledger.entries := by
  constructor
  · rintro ⟨location, found⟩
    obtain ⟨other, otherMember, id, bound⟩ := running.nothingElse ⟨ledger.ledgerId, entryId, 0⟩
      ⟨ledger, member, rfl⟩ (by simp [found])
    have same := running.settled.accounts.ordered.unique otherMember member id
    exact same ▸ bound
  intro bound
  have stores : state.ledger.info.Stores ⟨ledger.ledgerId, entryId, 0⟩ :=
    ⟨ledger, member, rfl, bound⟩
  obtain ⟨entry, entryMember, slot⟩ := (running.settled.accounts.stores _).mp stores
  obtain ⟨ledgers, entries⟩ := (slot_eq_iff _ _).mp slot
  obtain ⟨index, found, _⟩ := running.located entry entryMember
  rw [ledgers, entries] at found
  exact ⟨_, found⟩

theorem Running.consistent (running : Running maxEntries state) : Consistent maxEntries state where
  increasingIds := running.settled.accounts.ordered.increasing
  full := running.packed.full
  entryKeys _ member := running.entry_keys member
  entryIds _ member := running.settled.accounts.entry_ids member
  counts ledger member := (running.settled.accounts.counts ledger member).1
  sizes ledger member := (running.settled.accounts.counts ledger member).2
  last := by
    have nonempty := running.settled.accounts.ordered.nonempty
    refine ⟨state.ledger.info.currentLedger, ?_, running.settled.runtime⟩
    rw [currentLedger, getLastD_eq_getLast?, getLast?_eq_some_getLast nonempty]
    rfl
  lac := running.settled.lac
  increasing := running.settled.accounts.increasing

/-- After every batch of every run the ledger is consistent, and a batch that
fails leaves metadata, runtime cursor and last confirmed position unchanged. -/
theorem append_keeps_ledger_consistent (maxEntries : Nat) (positive : 1 ≤ maxEntries)
    (state : AppendState) (reachable : Reachable maxEntries state) :
    Consistent maxEntries state ∧ ∀ faults items error,
      (appendOutcome faults items state).result = .error error →
        (append faults items state).ledger.info = state.ledger.info ∧
        (append faults items state).ledger.runtime = state.ledger.runtime ∧
        (append faults items state).ledger.lac = state.ledger.lac := by
  refine ⟨(running_reachable positive reachable).consistent, ?_⟩
  intro faults items error failed
  have same : (append faults items state).ledger = state.ledger := by
    by_cases empty : items = []
    · simp [append, appendOutcome, addEntriesWithPartitionAndMetadata, empty]
    rcases add_entries_cases faults state.ledger state.db state.entryLog empty with
      refused | ⟨assigned, indices, committed⟩
    · exact refused.ledger_eq
    · have answered := committed.result_eq
      unfold appendOutcome at failed
      rw [failed] at answered
      cases answered
  rw [same]
  exact ⟨rfl, rfl, rfl⟩

def sampleItem : Item where
  partition := 0
  metadata := [1]
  payload := [2, 3]

def sampleLedger : RocksDBManagedLedger where
  name := ['t']
  maxEntriesPerLedger := 2
  info := .new 0
  lac := none
  runtime := runtimeFromInfo (.new 0)

def sampleState : AppendState where
  ledger := sampleLedger
  db := (Db.empty.put ledgerIdAllocatorKey (.nextLedgerId 1)).put (managedLedgerKey ['t'])
    (.managedLedgerInfo (StoredManagedLedgerInfo.new 0).encode)
  entryLog := openWithLimit [] defaultLogSizeLimit
  returned := []

theorem reachable_sample : Reachable 2
    (append .none [sampleItem, sampleItem, sampleItem] sampleState) := by
  apply Reachable.batch
  exact Reachable.opened OpenFaults.none ['t'] Db.empty sampleState.db sampleLedger
    sampleState.entryLog (fun _ _ _ _ _ => rfl) rfl rfl

/-- Three items with two to a ledger: the second item fills the first ledger. -/
theorem append_keeps_ledger_consistent_three :
    (append .none [sampleItem, sampleItem, sampleItem] sampleState).ledger.info.ledgers =
      [⟨0, 2, 6⟩, ⟨1, 1, 3⟩] ∧
    Consistent 2 (append .none [sampleItem, sampleItem, sampleItem] sampleState) :=
  ⟨by decide, (append_keeps_ledger_consistent 2 (by decide) _ reachable_sample).1⟩

end PulsarLite.Storage.AppendInvariant
