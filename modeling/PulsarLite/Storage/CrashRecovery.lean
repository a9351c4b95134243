import PulsarLite.Storage.LedgerRead
import PulsarLite.Storage.Opening

/-!
# Crash recovery

A topic over any number of process lives. A crash loses the open ledger and the
state of the writer, and keeps the database and the log files as the completed
writes have left them. Whatever was committed is found again at the next
opening, and a batch is found as a whole or not at all.
-/

namespace PulsarLite.Storage.CrashRecovery

open Library StoredManagedLedgerInfo RocksDBManagedLedger EntryLogStore List

/-- A topic: the database and the log files, the ledger if a process has it open,
the batches that were submitted, the batches that reached the database, and the
messages whose append returned. -/
structure Node where
  db : Db
  entryLog : EntryLogStore
  ledger : Option RocksDBManagedLedger
  attempted : List (List Item)
  committed : List CommittedLog
  returned : CommittedLog

def Node.log (node : Node) : CommittedLog := node.committed.flatten

section

variable (faults : AppendFaults) (items : List Item) (ledger : RocksDBManagedLedger) (node : Node)

def appendOutcome : AppendOutcome :=
  addEntriesWithPartitionAndMetadata faults ledger node.db node.entryLog items

def committedBatch (outcome : AppendOutcome) (items : List Item) : List CommittedLog :=
  match outcome.result with
  | .ok positions => [positions.zip items]
  | .error _ => []

def append : Node :=
  let outcome := appendOutcome faults items ledger node
  { db := outcome.db
    entryLog := outcome.entryLog
    ledger := some outcome.ledger
    attempted := node.attempted ++ [items]
    committed := node.committed ++ committedBatch outcome items
    returned := node.returned ++ (committedBatch outcome items).flatten }

/-- A crash in the middle of an append. Up to the crash the append has done what
it does when the step that the crash prevents fails; if no step fails, the crash
comes after the database has the batch and before the append returns. -/
def appendCut : Node :=
  { append faults items ledger node with ledger := none, returned := node.returned }

end

def crash (node : Node) : Node := { node with ledger := none }

/-- A new process opens the entry log, then the ledger. If a step of the opening
fails, or is prevented by a crash, the process has no ledger. -/
def reopen (faults : OpenFaults) (logSizeLimit : Nat) (name : Text) (config : ManagedLedgerConfig)
    (node : Node) : Node :=
  let entryLog := openWithLimit node.entryLog.files logSizeLimit
  match openWithConfig faults name node.db config with
  | .ok (ledger, db) => { node with db := db, entryLog := entryLog, ledger := some ledger }
  | .error (_, db) => { node with db := db, entryLog := entryLog, ledger := none }

def Fits (node : Node) : Prop := ∀ ledger ∈ node.ledger, ledger.info.Encodable

/-- Every history of a topic. The running process meets no failed write that
leaves a trace in the log file; a crash may leave any part of one. -/
inductive History (name : Text) : Node → Prop
  | created (db : Db) (files logSizeLimit next) (missing : db (Keys.managedLedgerKey name) = none)
      (counter : nextLedgerId db = .ok next) :
      History name {
        db := db
        entryLog := openWithLimit files logSizeLimit
        ledger := none
        attempted := []
        committed := []
        returned := [] }
  | reopened (faults logSizeLimit config node) (before : History name node)
      (fits : Fits (reopen faults logSizeLimit name config node)) :
      History name (reopen faults logSizeLimit name config node)
  | appended (faults items ledger node) (before : History name node)
      (running : node.ledger = some ledger) (traceless : WriteFaults.Traceless faults.entryLog)
      (framed : ∀ item ∈ items, item.Framed) (fits : Fits (append faults items ledger node)) :
      History name (append faults items ledger node)
  | cut (faults items ledger node) (before : History name node)
      (running : node.ledger = some ledger) (framed : ∀ item ∈ items, item.Framed)
      (fits : Fits (append faults items ledger node)) :
      History name (appendCut faults items ledger node)
  | crashed (node) (before : History name node) : History name (crash node)

/-- What the database and the log files keep. -/
structure Durable (name : Text) (node : Node) : Prop where
  stored : node.db (Keys.managedLedgerKey name) = none ∧ node.log = [] ∨
    ∃ info, Persisted name node.db info node.log
  counter : ∃ next, nextLedgerId node.db = .ok next
  located : Located (Holds node.entryLog) node.db node.log
  framed : ∀ entry ∈ node.log, entry.2.Framed
  returned : node.returned.Sublist node.log
  whole : ∀ batch ∈ node.committed, batch.map Prod.snd ∈ node.attempted

structure Running (name : Text) (node : Node) (ledger : RocksDBManagedLedger) : Prop where
  named : ledger.name = name
  settled : Settled ledger node.db node.log
  persisted : node.db (Keys.managedLedgerKey name) = some (.managedLedgerInfo ledger.info.encode)
  encodable : ledger.info.Encodable

variable {name : Text} {node : Node} {ledger : RocksDBManagedLedger} {faults : AppendFaults}
  {items : List Item}

theorem Running.stored (running : Running name node ledger) :
    Persisted name node.db ledger.info node.log where
  key := running.persisted
  encodable := running.encodable
  accounts := running.settled.accounts
  ahead := running.settled.ahead

theorem Running.counter (running : Running name node ledger) :
    ∃ next, nextLedgerId node.db = .ok next := by
  obtain ⟨next, found, _⟩ := running.settled.ahead
  exact ⟨next, found⟩

section

variable (durable : Durable name node)
include durable

theorem Durable.loads (event) : Loads event name node.db node.log := by
  obtain ⟨missing, empty⟩ | ⟨info, persisted⟩ := durable.stored
  · rw [empty]
    exact loads_missing missing
  · exact persisted.loads

theorem Durable.described : Located Describes node.db node.log :=
  durable.located.weaken fun _ _ holds => holds.1

section

variable (running : Running name node ledger)
include running

theorem refused_append (refused : Refused faults ledger node.db node.entryLog
      (appendOutcome faults items ledger node)) :
    Durable name (append faults items ledger node) ∧
      Running name (append faults items ledger node) ledger := by
  obtain ⟨error, failed⟩ := refused.failed
  have nothing : committedBatch (appendOutcome faults items ledger node) items = [] := by
    simp [committedBatch, failed]
  have log : (append faults items ledger node).log = node.log := by
    simp [append, Node.log, nothing]
  have moved : AllocatorMoved node.db (append faults items ledger node).db := refused.moved
  have after : Running name (append faults items ledger node) ledger := {
    named := running.named
    settled := by
      rw [log]
      exact running.settled.moved moved
    persisted := (moved.frame _ (Keys.ledger_key_ne_allocator_key name)).trans running.persisted
    encodable := running.encodable }
  refine ⟨?_, after⟩
  exact {
    stored := Or.inr ⟨_, after.stored⟩
    counter := after.counter
    located := by
      rw [log]
      exact (durable.located.moved moved).weaken fun _ _ holds => holds.extends refused.extends
    framed := log ▸ durable.framed
    returned := by
      rw [log]
      simpa [append, nothing] using durable.returned
    whole batch member := by
      simp only [append, nothing, append_nil] at member
      exact mem_append_left _ (durable.whole batch member) }

theorem committed_append (aligned : Aligned node.entryLog) (nonempty : items ≠ [])
    (framed : ∀ item ∈ items, item.Framed) (fits : Fits (append faults items ledger node))
    {assigned indices}
    (committed : Committed faults ledger node.db node.entryLog items assigned indices
      (appendOutcome faults items ledger node)) :
    Durable name (append faults items ledger node) ∧
      Running name (append faults items ledger node)
        (appendOutcome faults items ledger node).ledger := by
  have assigning := committed.assigning running.settled
  have batch : committedBatch (appendOutcome faults items ledger node) items =
      [assigned.positions.zip items] := by
    simp [committedBatch, committed.result_eq]
  have log : (append faults items ledger node).log = node.log ++ assigned.positions.zip items := by
    simp [append, Node.log, batch]
  have after : Running name (append faults items ledger node)
      (appendOutcome faults items ledger node).ledger := {
    named := (congrArg RocksDBManagedLedger.name committed.ledger_eq).trans running.named
    settled := by
      rw [log]
      exact committed.settled running.settled nonempty
    persisted := by
      have written := commit_ledger_key ledger.name assigned indices
      rw [← committed.db_eq, running.named] at written
      rw [committed.ledger_eq]
      exact written
    encodable := fits _ rfl }
  refine ⟨?_, after⟩
  exact {
    stored := Or.inr ⟨_, after.stored⟩
    counter := after.counter
    located := by
      rw [log]
      exact committed.located running.settled
        (durable.located.weaken fun _ _ holds => holds.extends committed.extends)
        (committed.holds aligned)
    framed entry member := by
      rw [log] at member
      obtain old | new := mem_append.mp member
      · exact durable.framed entry old
      · exact framed entry.2 (of_mem_zip new).2
    returned := by
      rw [log]
      simpa [append, batch] using durable.returned
    whole other member := by
      simp only [append, batch] at member ⊢
      obtain old | new := mem_append.mp member
      · exact mem_append_left _ (durable.whole other old)
      · rw [mem_singleton.mp new, map_snd_zip assigning.partitions.length_eq.ge]
        exact mem_append_right _ (mem_singleton_self _) }

theorem empty_append : Durable name (append faults [] ledger node) ∧
      Running name (append faults [] ledger node) ledger := by
  have log : (append faults [] ledger node).log = node.log := by
    simp [append, Node.log, appendOutcome, addEntriesWithPartitionAndMetadata, committedBatch]
  constructor
  · exact {
      stored := log ▸ durable.stored
      counter := durable.counter
      located := log ▸ durable.located
      framed := log ▸ durable.framed
      returned := by
        rw [log]
        simpa [append, appendOutcome, addEntriesWithPartitionAndMetadata, committedBatch] using
          durable.returned
      whole batch member := by
        obtain old | new := mem_append.mp member
        · exact mem_append_left _ (durable.whole batch old)
        · rw [mem_singleton.mp new]
          exact mem_append_right _ (mem_singleton_self _) }
  · exact {
      named := running.named
      settled := log ▸ running.settled
      persisted := running.persisted
      encodable := running.encodable }

theorem durable_append (aligned : Aligned node.entryLog) (framed : ∀ item ∈ items, item.Framed)
    (fits : Fits (append faults items ledger node)) :
    Durable name (append faults items ledger node) ∧
      Running name (append faults items ledger node)
        (appendOutcome faults items ledger node).ledger := by
  by_cases empty : items = []
  · subst empty
    exact empty_append durable running
  rcases add_entries_cases faults ledger node.db node.entryLog empty with
    refused | ⟨assigned, indices, committed⟩
  · have after := refused_append durable running refused
    have same : (appendOutcome faults items ledger node).ledger = ledger := refused.ledger_eq
    rw [same]
    exact after
  · exact committed_append durable running aligned empty framed fits committed

end

/-- An opening, whatever happens to it, finds the log. -/
theorem durable_reopen (faults logSizeLimit config)
    (fits : Fits (reopen faults logSizeLimit name config node)) :
    Durable name (reopen faults logSizeLimit name config node) ∧
      ∀ ledger, (reopen faults logSizeLimit name config node).ledger = some ledger →
        Running name (reopen faults logSizeLimit name config node) ledger := by
  have grown : Files.Extends node.entryLog.files
      (openWithLimit node.entryLog.files logSizeLimit).files := extends_open _ _
  have loads := durable.loads (faults.allocations.getD 0 .quiet)
  unfold reopen at fits ⊢
  cases outcome : openWithConfig faults name node.db config with
  | error failure =>
    have moved := loads.error_moved durable.described outcome
    refine ⟨?_, fun _ impossible => by cases impossible⟩
    exact {
      stored := by
        obtain ⟨missing, empty⟩ | ⟨info, persisted⟩ := durable.stored
        · exact Or.inl ⟨(moved.frame _ (Keys.ledger_key_ne_allocator_key name)).trans missing,
            empty⟩
        · exact Or.inr ⟨info, persisted.moved moved⟩
      counter := by
        obtain ⟨next, found⟩ := durable.counter
        obtain ⟨later, laterFound, _⟩ := moved.ahead next found
        exact ⟨later, laterFound⟩
      located := (durable.located.moved moved).weaken fun _ _ holds => holds.extends grown
      framed := durable.framed
      returned := durable.returned
      whole := durable.whole }
  | ok pair =>
    obtain ⟨ledger, after⟩ := pair
    have stages := open_with_config_opened outcome
    obtain ⟨settled, rewritten⟩ := loads.opened durable.described stages
    simp only [outcome] at fits
    have running : Running name { node with
        db := after
        entryLog := openWithLimit node.entryLog.files logSizeLimit
        ledger := some ledger } ledger := {
      named := stages.name_eq
      settled := settled
      persisted := rewritten.key
      encodable := fits ledger rfl }
    constructor
    · exact {
        stored := Or.inr ⟨_, running.stored⟩
        counter := running.counter
        located := (durable.located.rewritten rewritten).weaken fun _ _ holds =>
          holds.extends grown
        framed := durable.framed
        returned := durable.returned
        whole := durable.whole }
    · intro other same
      cases same
      exact running

end

structure Alive (name : Text) (node : Node) : Prop where
  durable : Durable name node
  running : ∀ ledger, node.ledger = some ledger → Running name node ledger
  aligned : ∀ ledger, node.ledger = some ledger → Aligned node.entryLog

theorem Durable.alive (durable : Durable name node) (stopped : node.ledger = none) :
    Alive name node where
  durable := durable
  running ledger found := by
    rw [stopped] at found
    cases found
  aligned ledger found := by
    rw [stopped] at found
    cases found

theorem reopen_entry_log (faults logSizeLimit name config node) :
    (reopen faults logSizeLimit name config node).entryLog =
      openWithLimit node.entryLog.files logSizeLimit := by
  unfold reopen
  cases openWithConfig faults name node.db config <;> rfl

theorem History.alive (history : History name node) : Alive name node := by
  induction history with
  | created db files logSizeLimit next missing counter =>
    have durable : Durable name {
        db := db
        entryLog := openWithLimit files logSizeLimit
        ledger := none
        attempted := []
        committed := []
        returned := [] } := {
      stored := Or.inl ⟨missing, rfl⟩
      counter := ⟨next, counter⟩
      located := by simp [Located, Node.log]
      framed := by simp [Node.log]
      returned := List.Sublist.refl _
      whole := by simp }
    exact durable.alive rfl
  | reopened faults logSizeLimit config node before fits ih =>
    have found := durable_reopen ih.durable faults logSizeLimit config fits
    refine ⟨found.1, found.2, ?_⟩
    intro ledger _
    rw [reopen_entry_log]
    exact aligned_open _ _
  | appended faults items ledger node before running traceless framed fits ih =>
    have aligned := ih.aligned ledger running
    have after := durable_append ih.durable (ih.running ledger running) aligned framed fits
    refine ⟨after.1, ?_, ?_⟩
    · intro other same
      cases same
      exact after.2
    · intro _ _
      exact add_entries_aligned traceless aligned ledger node.db items
  | cut faults items ledger node before running framed fits ih =>
    have aligned := ih.aligned ledger running
    have after := durable_append ih.durable (ih.running ledger running) aligned framed fits
    have durable : Durable name (appendCut faults items ledger node) := {
      stored := after.1.stored
      counter := after.1.counter
      located := after.1.located
      framed := after.1.framed
      returned := by
        have sub := ih.durable.returned
        simp only [appendCut, append, Node.log, flatten_append]
        exact sub.trans (sublist_append_left _ _)
      whole := after.1.whole }
    exact durable.alive rfl
  | crashed node before ih =>
    have durable : Durable name (crash node) := {
      stored := ih.durable.stored
      counter := ih.durable.counter
      located := ih.durable.located
      framed := ih.durable.framed
      returned := ih.durable.returned
      whole := ih.durable.whole }
    exact durable.alive rfl

structure Recovered (node : Node) (ledger : RocksDBManagedLedger) : Prop where
  readBack : ∀ entry ∈ node.returned,
    getMessageEntryById ledger node.db node.entryLog entry.1.toMessageId =
      some (messageOf entry)
  distinct : node.returned.Pairwise fun left right => left.1.slot < right.1.slot
  lac : ledger.lac = node.committed.flatten.getLast?.map Prod.fst
  visible : ∀ id message, getMessageEntryById ledger node.db node.entryLog id = some message ↔
    ∃ batch ∈ node.committed, ∃ entry ∈ batch, entry.1.toMessageId = id ∧
      message = messageOf entry
  scanned : ∀ start limit, ∃ result,
    readEntriesFrom ledger node.db node.entryLog start limit = .ok result ∧
      ∀ message ∈ result, ∃ batch ∈ node.committed, ∃ entry ∈ batch, message = messageOf entry
  whole : ∀ batch ∈ node.committed, batch.map Prod.snd ∈ node.attempted

theorem Alive.recovered {name node ledger} (alive : Alive name node)
    (isOpen : node.ledger = some ledger) : Recovered node ledger := by
  have running := alive.running ledger isOpen
  have accounts := running.settled.accounts
  have inRange := log_in_range_of_encodable accounts running.encodable alive.durable.framed
  have located := alive.durable.located
  have inBatch entry : entry ∈ node.log ↔ ∃ batch ∈ node.committed, entry ∈ batch := mem_flatten
  exact {
    readBack entry member := by
      rw [get_message_entry_by_id_spec running.settled located inRange]
      exact message_in_member accounts (alive.durable.returned.subset member)
    distinct := accounts.increasing.sublist alive.durable.returned
    lac := running.settled.lac
    visible id message := by
      rw [get_message_entry_by_id_spec running.settled located inRange, message_in_eq_some accounts]
      simp only [inBatch]
      constructor
      · intro found
        obtain ⟨entry, ⟨batch, member, inside⟩, rest⟩ := found
        exact ⟨batch, member, entry, inside, rest⟩
      · intro found
        obtain ⟨batch, member, entry, inside, rest⟩ := found
        exact ⟨entry, ⟨batch, member, inside⟩, rest⟩
    scanned start limit := by
      obtain ⟨result, read, committed⟩ :=
        read_entries_from_committed running.settled located inRange start limit
      refine ⟨result, read, ?_⟩
      intro message member
      obtain ⟨entry, inLog, same⟩ := committed message member
      obtain ⟨batch, batchMember, inside⟩ := (inBatch entry).mp inLog
      exact ⟨batch, batchMember, entry, inside, same⟩
    whole := alive.durable.whole }

/-- However the process was stopped, the topic opens again, under any
configuration, with what was committed: whole batches, among them every append
that returned. -/
theorem committed_batches_survive_crashes (name : Text) (node : Node)
    (history : History name node) (logSizeLimit : Nat) (config : ManagedLedgerConfig)
    (fits : Fits (reopen .none logSizeLimit name config node)) :
    ∃ ledger, (reopen .none logSizeLimit name config node).ledger = some ledger ∧
      Recovered (reopen OpenFaults.none logSizeLimit name config node) ledger := by
  have durable := history.alive.durable
  have opens : ∃ ledger after,
      openWithConfig .none name node.db config = .ok (ledger, after) := by
    obtain ⟨missing, _⟩ | ⟨info, persisted⟩ := durable.stored
    · obtain ⟨next, found⟩ := durable.counter
      exact open_missing_succeeds config missing found
    · exact open_again_succeeds config persisted durable.described
  obtain ⟨ledger, after, opened⟩ := opens
  have running : (reopen .none logSizeLimit name config node).ledger = some ledger := by
    simp only [reopen, opened]
  have next := (History.reopened OpenFaults.none logSizeLimit config node history fits).alive
  exact ⟨ledger, running, next.recovered running⟩

instance (node : Node) : Decidable (Fits node) :=
  inferInstanceAs (Decidable (∀ ledger ∈ node.ledger, _))

def sampleName : Text := ['t']

def sampleConfig : ManagedLedgerConfig where
  maxEntriesPerLedger := some 2

def sampleItem : Item where
  partition := 0
  metadata := [1]
  payload := [2, 3]

def sampleCreated : Node where
  db := .empty
  entryLog := openWithLimit [] 100
  ledger := none
  attempted := []
  committed := []
  returned := []

def sampleOpened : Node := reopen .none 100 sampleName sampleConfig sampleCreated

def sampleLedger : RocksDBManagedLedger where
  name := sampleName
  maxEntriesPerLedger := 2
  info := .new 0
  lac := none
  runtime := runtimeFromInfo (.new 0)

def sampleAppended : Node :=
  append .none [sampleItem, sampleItem] sampleLedger sampleOpened

/-- A crash after ten bytes of the third entry. -/
def sampleCut : Node :=
  appendCut { AppendFaults.none with
      entryLog := { openError := none, writeError := some (10, "crash") } } [sampleItem]
    (appendOutcome .none [sampleItem, sampleItem] sampleLedger sampleOpened).ledger
    sampleAppended

theorem sample_appended : History sampleName sampleAppended := by
  apply History.appended
  · apply History.reopened
    · exact .created .empty [] 100 0 rfl rfl
    · decide
  · decide
  · exact ⟨rfl, fun _ _ impossible => by cases impossible⟩
  · decide
  · decide

theorem sample_history : History sampleName sampleCut := by
  apply History.cut _ _ _ _ sample_appended
  · rfl
  · decide
  · decide

/-- Two messages, a torn third one, and a restart with another size of ledgers. -/
theorem committed_batches_survive_crashes_torn :
    sampleCut.returned = [(⟨0, 0, 0⟩, sampleItem), (⟨0, 1, 0⟩, sampleItem)] ∧
    ∃ ledger, (reopen OpenFaults.none 100 sampleName ⟨some 1⟩ sampleCut).ledger = some ledger ∧
      Recovered (reopen OpenFaults.none 100 sampleName ⟨some 1⟩ sampleCut) ledger :=
  ⟨by decide, committed_batches_survive_crashes sampleName sampleCut sample_history 100 ⟨some 1⟩
    (by decide)⟩

end PulsarLite.Storage.CrashRecovery
