import PulsarLite.Storage.LedgerView

/-!
# What an operation can reach

Every operation of the storage works on one ledger and one cursor. It changes the
open ledger of its name, the two keys of the ledger and the cursor, the allocator,
and the entries of ledger ids that are its own or new. That the ids of different
ledgers stay apart is an invariant of the whole storage.
-/

namespace PulsarLite.Storage.RocksDbManagedLedgerStorage

open Library Keys List StoredLedgerInfo Function Except StoredManagedLedgerInfo

variable {db : Db} {info stored read : StoredManagedLedgerInfo} {indices : List EntryIndex}
  {id maxEntries next : Nat} {other : Text} {opened : RocksDbManagedLedgerStorage}
  {value : Option DbValue}

open RocksDBManagedLedger RocksDBManagedCursor StoredManagedLedgerInfo EntryLogStore

section

variable (storage : RocksDbManagedLedgerStorage) (name : Text) (id : Nat)

def OpenId : Prop :=
  ∃ ledger, storage.ledgers name = some ledger ∧ ledger.info.Knows id

def StoredId (db : Db) (name : Text) (id : Nat) : Prop :=
  ∃ stored, storedInfo (db (managedLedgerKey name)) = .ok stored ∧ stored.Knows id

def Uses : Prop :=
  OpenId storage name id ∨ StoredId storage.db name id

def Fresh (db : Db) (id : Nat) : Prop :=
  ∀ next, nextLedgerId db = .ok next → next ≤ id

def Owns : Prop :=
  Uses storage name id ∨ Fresh storage.db id

end

/-- Every entry key has the location of an entry that the entry log holds. -/
def Held (db : Db) (entryLog : EntryLogStore) : Prop :=
  ∀ ledgerId entryId value, db (managedEntryKey ledgerId entryId) = some value →
    ∃ index entry, value = .entryLocation (locationOf index) ∧ index.ledgerId = ledgerId ∧
      index.entryId = entryId ∧ Holds entryLog index entry

def Counted (info : StoredManagedLedgerInfo) (db : Db) : Prop :=
  ∃ next, nextLedgerId db = .ok next ∧ ∀ id, info.Knows id → id < next

/-- The ledgers of a storage are housed apart from each other. -/
structure Housed (storage : RocksDbManagedLedgerStorage) : Prop where
  counted : ∃ next, nextLedgerId storage.db = .ok next ∧
    ∀ name id, Uses storage name id → id < next
  apart : ∀ left right id, Uses storage left id → Uses storage right id → left = right
  named : ∀ name ledger, storage.ledgers name = some ledger → ledger.name = name ∧
    ledger.info.Knows ledger.runtime.currentLedgerId
  aligned : Aligned storage.entryLog
  held : Held storage.db storage.entryLog

def IdsFit (db : Db) : Prop := ∀ next, nextLedgerId db = .ok next → next ≤ u64Modulus

variable {storage : RocksDbManagedLedgerStorage} {name : Text}

theorem Housed.not_fresh (housed : Housed storage) (uses : Uses storage name id) :
    ¬ Fresh storage.db id := by
  intro fresh
  obtain ⟨next, found, below⟩ := housed.counted
  have small := below name id uses
  have large := fresh next found
  omega

theorem Housed.owner (housed : Housed storage) (owns : Owns storage name id)
    (uses : Uses storage other id) : name = other := by
  obtain used | fresh := owns
  · exact housed.apart name other id used uses
  · exact absurd fresh (housed.not_fresh uses)

theorem held_extends {old new} (held : Held db old) (grown : Files.Extends old.files new.files) :
    Held db new := by
  intro ledgerId entryId value found
  obtain ⟨index, entry, same, ids, entries, holds⟩ := held ledgerId entryId value found
  exact ⟨index, entry, same, ids, entries, holds.extends grown⟩

theorem not_stored_id_empty (name id) : ¬ StoredId .empty name id := by
  rintro ⟨stored, read, ledger, member, _⟩
  cases ok.inj read
  cases member

theorem uses_open_storage {files config} (uses : Uses (openStorage db files config) name id) :
    StoredId db name id := by
  obtain ⟨ledger, impossible, _⟩ | stored := uses
  · cases impossible
  · exact stored

theorem housed_created (files config) : Housed (openStorage .empty files config) where
  counted := ⟨0, rfl, fun name id uses =>
    absurd (uses_open_storage uses) (not_stored_id_empty name id)⟩
  apart left _ id uses _ := absurd (uses_open_storage uses) (not_stored_id_empty left id)
  named _ _ impossible := by cases impossible
  aligned := aligned_open _ _
  held _ _ _ impossible := by cases impossible

theorem Housed.restart (housed : Housed storage) (config) :
    Housed (openStorage storage.db storage.entryLog.files config) where
  counted := by
    obtain ⟨next, found, below⟩ := housed.counted
    exact ⟨next, found, fun name id uses => below name id (.inr (uses_open_storage uses))⟩
  apart left right id leftUses rightUses :=
    housed.apart left right id (.inr (uses_open_storage leftUses))
      (.inr (uses_open_storage rightUses))
  named _ _ impossible := by cases impossible
  aligned := aligned_open _ _
  held := held_extends housed.held (extends_open _ _)

theorem Housed.view_below (housed : Housed storage) (name : Text)
    (found : nextLedgerId storage.db = .ok next)
    (read : storedInfo (storage.db (managedLedgerKey name)) = .ok stored) :
    ∀ id, stored.Knows id → id < next := by
  intro id known
  obtain ⟨other, otherFound, below⟩ := housed.counted
  rw [found] at otherFound
  cases otherFound
  exact below name id (.inr ⟨stored, read, known⟩)

variable {middle after : RocksDbManagedLedgerStorage} {cursorName : Text} {owned : Nat → Prop}

/-- The changes are confined to one ledger, one cursor and the entries of some
ledger ids. -/
structure Confined (owned : Nat → Prop) (name cursorName : Text)
    (storage after : RocksDbManagedLedgerStorage) : Prop where
  ledgers : ∀ other, other ≠ name → after.ledgers other = storage.ledgers other
  keys : ∀ key, key ≠ ledgerIdAllocatorKey → key ≠ managedLedgerKey name →
    key ≠ managedCursorKey name cursorName →
    (∀ ledgerId entryId, key ≠ managedEntryKey ledgerId entryId) →
    after.db key = storage.db key
  cursor : after.db (managedCursorKey name cursorName) =
      storage.db (managedCursorKey name cursorName) ∨
    ∀ info, after.db (managedCursorKey name cursorName) ≠ some (.managedLedgerInfo info)
  entries : ∀ ledgerId entryId, owned ledgerId ∨
    after.db (managedEntryKey ledgerId entryId) =
      storage.db (managedEntryKey ledgerId entryId)
  openIds : ∀ id, OpenId after name id → owned id
  counter : ∀ next, nextLedgerId storage.db = .ok next →
    ∃ later, nextLedgerId after.db = .ok later ∧ next ≤ later
  files : Files.Extends storage.entryLog.files after.entryLog.files

theorem Confined.refl (within : ∀ id, OpenId storage name id → owned id) (cursorName : Text) :
    Confined owned name cursorName storage storage where
  ledgers _ _ := rfl
  keys _ _ _ _ _ := rfl
  cursor := .inl rfl
  entries _ _ := .inr rfl
  openIds := within
  counter next found := ⟨next, found, le_refl _⟩
  files := .refl _

theorem owns_open (storage name id) (opened : OpenId storage name id) : Owns storage name id :=
  .inl (.inl opened)

theorem Confined.trans {later : Nat → Prop} (first : Confined owned name cursorName storage middle)
    (second : Confined later name cursorName middle after) (within : ∀ id, later id → owned id) :
    Confined owned name cursorName storage after where
  ledgers other different := (second.ledgers other different).trans (first.ledgers other different)
  keys key notAllocator notLedger notCursor notEntry :=
    (second.keys key notAllocator notLedger notCursor notEntry).trans
      (first.keys key notAllocator notLedger notCursor notEntry)
  cursor := by
    obtain same | never := second.cursor
    · rw [same]
      exact first.cursor
    · exact .inr never
  entries ledgerId entryId := by
    obtain new | same := second.entries ledgerId entryId
    · exact .inl (within ledgerId new)
    · rw [same]
      exact first.entries ledgerId entryId
  openIds id opened := within id (second.openIds id opened)
  counter next found := by
    obtain ⟨between, betweenFound, below⟩ := first.counter next found
    obtain ⟨last, lastFound, above⟩ := second.counter between betweenFound
    exact ⟨last, lastFound, below.trans above⟩
  files := first.files.trans second.files

def Reaches (storage : RocksDbManagedLedgerStorage) (name : Text) (id : Nat) : Prop :=
  OpenId storage name id ∨ Fresh storage.db id

theorem Confined.reaches (confined : Confined (Owns storage name) name cursorName storage middle)
    (reaches : Reaches middle name id) : Owns storage name id := by
  obtain opened | fresh := reaches
  · exact confined.openIds id opened
  · right
    intro next found
    obtain ⟨later, laterFound, above⟩ := confined.counter next found
    exact above.trans (fresh later laterFound)

theorem Confined.of_reaches
    (confined : Confined (Reaches storage name) name cursorName storage after) :
    Confined (Owns storage name) name cursorName storage after :=
  (Confined.refl (owns_open storage name) cursorName).trans confined fun _ reaches =>
    (Confined.refl (owns_open storage name) cursorName).reaches reaches

theorem Confined.uses_other (confined : Confined owned name cursorName storage after)
    (different : other ≠ name) (uses : Uses after other id) : Uses storage other id := by
  obtain ⟨ledger, cached, known⟩ | ⟨stored, read, known⟩ := uses
  · rw [confined.ledgers other different] at cached
    exact .inl ⟨ledger, cached, known⟩
  have notLedger : managedLedgerKey other ≠ managedLedgerKey name :=
    fun same => different (managed_ledger_key_inj same)
  by_cases cursor : managedLedgerKey other = managedCursorKey name cursorName
  · obtain same | never := confined.cursor
    · rw [cursor, same, ← cursor] at read
      exact .inr ⟨stored, read, known⟩
    rw [cursor] at read
    generalize after.db (managedCursorKey name cursorName) = value at read never
    cases value with
    | none =>
      cases ok.inj read
      obtain ⟨ledger, impossible, _⟩ := known
      cases impossible
    | some value =>
      cases value with
      | managedLedgerInfo info => exact absurd rfl (never info)
      | nextLedgerId | managedCursorInfo | entryLocation => cases read
  · rw [confined.keys _ (ledger_key_ne_allocator_key _) notLedger cursor
      (fun _ _ => ledger_key_ne_entry_key _ _ _)] at read
    exact .inr ⟨stored, read, known⟩

/-- What is left to show of an operation for the ledgers to stay housed: the
state of the ledger it works on. -/
theorem Housed.confined (housed : Housed storage)
    (confined : Confined (Owns storage name) name cursorName storage after)
    (storedIds : ∀ id, StoredId after.db name id → Owns storage name id)
    (below : ∀ next id, nextLedgerId after.db = .ok next → Uses after name id → id < next)
    (named : ∀ ledger, after.ledgers name = some ledger → ledger.name = name ∧
      ledger.info.Knows ledger.runtime.currentLedgerId)
    (aligned : Aligned after.entryLog) (held : Held after.db after.entryLog) : Housed after := by
  have owns id : Uses after name id → Owns storage name id := by
    intro uses
    obtain opened | stored := uses
    · exact confined.openIds id opened
    · exact storedIds id stored
  obtain ⟨next, found, before⟩ := housed.counted
  obtain ⟨later, laterFound, above⟩ := confined.counter next found
  exact {
    counted := by
      refine ⟨later, laterFound, ?_⟩
      intro other id uses
      by_cases same : other = name
      · exact below later id laterFound (same ▸ uses)
      · exact (before other id (confined.uses_other same uses)).trans_le above
    apart left right id leftUses rightUses := by
      by_cases leftSame : left = name
      · by_cases rightSame : right = name
        · rw [leftSame, rightSame]
        · rw [leftSame] at leftUses ⊢
          exact housed.owner (owns id leftUses) (confined.uses_other rightSame rightUses)
      have leftOld := confined.uses_other leftSame leftUses
      by_cases rightSame : right = name
      · rw [rightSame] at rightUses ⊢
        exact (housed.owner (owns id rightUses) leftOld).symm
      · exact housed.apart left right id leftOld (confined.uses_other rightSame rightUses)
    named other ledger cached := by
      by_cases same : other = name
      · exact same ▸ named ledger (same ▸ cached)
      · rw [confined.ledgers other same] at cached
        exact housed.named other ledger cached
    aligned := aligned
    held := held }

theorem Housed.keeps (housed : Housed storage)
    (confined : Confined (Owns storage name) name cursorName storage after)
    (same : after.ledgers name = storage.ledgers name)
    (stored : ∀ id, StoredId after.db name id → StoredId storage.db name id)
    (aligned : Aligned after.entryLog) (held : Held after.db after.entryLog) : Housed after := by
  obtain ⟨next, found, below⟩ := housed.counted
  obtain ⟨later, laterFound, above⟩ := confined.counter next found
  refine housed.confined confined (fun id inDb => .inl (.inr (stored id inDb))) ?_ ?_ aligned held
  · intro last id lastFound uses
    cases laterFound.symm.trans lastFound
    obtain ⟨ledger, cached, known⟩ | inDb := uses
    · exact (below name id (.inl ⟨ledger, same ▸ cached, known⟩)).trans_le above
    · exact (below name id (.inr (stored id inDb))).trans_le above
  · rw [same]
    exact housed.named name

theorem decode_encode_ids (words : ∀ id, info.Knows id → id < u64Modulus)
    (decoded : decode info.encode = .ok read) (known : read.Knows id) :
    info.Knows id := by
  obtain ⟨ledgers, collected, result⟩ := bind_eq_ok.mp decoded
  cases ok.inj result
  have each : ∀ (stored : List StoredLedgerInfo) (ledgers : List StoredLedgerInfo),
      (∀ ledger ∈ stored, ledger.ledgerId < u64Modulus) →
      (encode { ledgers := stored }).ledgerInfo.mapM decodeLedger =
        .ok ledgers → ledgers.map ledgerId =
          stored.map ledgerId := by
    intro stored
    induction stored with
    | nil =>
      intro ledgers _ collected
      cases ok.inj collected
      rfl
    | cons first stored ih =>
      intro ledgers words collected
      simp only [encode, map_cons, mapM_cons] at collected
      obtain ⟨head, headRead, collected⟩ := bind_eq_ok.mp collected
      obtain ⟨rest, restRead, result⟩ := bind_eq_ok.mp collected
      cases ok.inj result
      have tail := ih rest (fun ledger member => words ledger (mem_cons_of_mem _ member)) restRead
      obtain ⟨ledgerId, idRead, headRead⟩ := bind_eq_ok.mp headRead
      obtain ⟨entries, _, headRead⟩ := bind_eq_ok.mp headRead
      obtain ⟨size, _, headRead⟩ := bind_eq_ok.mp headRead
      cases ok.inj headRead
      have small := lt_of_try_into_as_i64 (words first mem_cons_self) idRead
      rw [try_into_as_i64 small] at idRead
      rw [map_cons, map_cons, tail, ok.inj idRead]
  have ids := each info.ledgers ledgers
    (fun ledger member => words ledger.ledgerId ⟨ledger, member, rfl⟩) collected
  obtain ⟨ledger, member, same⟩ := known
  have inRead : id ∈ ledgers.map ledgerId := mem_map.mpr ⟨ledger, member, same⟩
  rw [ids] at inRead
  exact mem_map.mp inRead

theorem stored_id_of_encode {name : Text}
    (found : db (managedLedgerKey name) = some (.managedLedgerInfo info.encode))
    (counted : Counted info db) (fits : IdsFit db) (stored : StoredId db name id) :
    info.Knows id := by
  obtain ⟨read, decoded, known⟩ := stored
  rw [found] at decoded
  obtain ⟨next, nextFound, below⟩ := counted
  apply decode_encode_ids _ decoded known
  intro other otherKnown
  exact (below other otherKnown).trans_le (fits next nextFound)

variable {topic : Text}

theorem lac_of_held {entryLog} (held : Held db entryLog) (info) :
    ∃ lac, lacFromInfoAndDb info db = .ok lac := by
  unfold lacFromInfoAndDb
  cases info.ledgers.reverse.find? fun ledger => decide (0 < ledger.entries) with
  | none => exact ⟨none, rfl⟩
  | some ledger =>
    cases found : db (managedEntryKey ledger.ledgerId (ledger.entries - 1)) with
    | none => exact ⟨none, by simp only [found]⟩
    | some value =>
      obtain ⟨index, _, rfl, _⟩ := held _ _ _ found
      exact ⟨_, by simp only [found]; rfl⟩

structure Opens (name : Text) (storage : RocksDbManagedLedgerStorage)
    (ledger : RocksDBManagedLedger) (after : RocksDbManagedLedgerStorage) : Prop where
  missing : storage.ledgers name = none
  initialized : ∃ next stored moved, nextLedgerId storage.db = .ok next ∧
    storedInfo (storage.db (managedLedgerKey name)) = .ok stored ∧
    Initialized next storage.db stored ledger.info moved ∧
    after.db = moved.put (managedLedgerKey name) (.managedLedgerInfo ledger.info.encode)
  named : ledger.name = name
  runtime : ledger.runtime = runtimeFromInfo ledger.info
  entryLog : after.entryLog = storage.entryLog
  ledgers : after.ledgers = update storage.ledgers name (some ledger)

theorem topic_ledger_cases (housed : Housed storage) (topic : Text) :
    (topicLedger topic storage).2 = storage ∨
    ∃ ledger, (topicLedger topic storage).1 = .ok ledger ∧
      Opens (managedLedgerName topic) storage ledger (topicLedger topic storage).2 := by
  unfold topicLedger openLedger getOrOpenLedger
  generalize managedLedgerName topic = name
  cases cached : storage.ledgers name with
  | some ledger => exact .inl rfl
  | none =>
    cases read : storedInfo (storage.db (managedLedgerKey name)) with
    | error error =>
      left
      simp only [open_quiet_error storage.config read]
    | ok stored =>
      obtain ⟨next, found, _⟩ := housed.counted
      obtain ⟨info, moved, initialized, opened⟩ := open_quiet found name storage.config read
      obtain ⟨lac, confirmed⟩ := lac_of_held housed.held stored
      simp only [opened, confirmed]
      right
      refine ⟨_, rfl, ?_⟩
      exact {
        missing := cached
        initialized := ⟨next, stored, moved, found, read, initialized, rfl⟩
        named := rfl
        runtime := rfl
        entryLog := rfl
        ledgers := rfl }

variable {ledger : RocksDBManagedLedger}

section

variable (opens : Opens name storage ledger after)
include opens

theorem Opens.rewritten : Rewritten name storage.db ledger.info after.db := by
  obtain ⟨next, stored, moved, found, _, initialized, result⟩ := opens.initialized
  rw [result]
  exact rewritten_of_moved (initialized.moved found) name ledger.info

theorem Opens.owns (known : ledger.info.Knows id) : Owns storage name id := by
  obtain ⟨next, stored, moved, found, read, initialized, _⟩ := opens.initialized
  obtain old | ⟨rfl, _⟩ := initialized.knows found known
  · exact .inl (.inr ⟨stored, read, old⟩)
  right
  intro other otherFound
  rw [found] at otherFound
  cases otherFound
  exact le_refl _

theorem Opens.counted (housed : Housed storage) : Counted ledger.info after.db := by
  obtain ⟨next, stored, moved, found, read, initialized, result⟩ := opens.initialized
  obtain ⟨later, laterFound, above⟩ := opens.rewritten.ahead next found
  refine ⟨later, laterFound, ?_⟩
  intro id known
  obtain old | ⟨rfl, moves⟩ := initialized.knows found known
  · exact (housed.view_below name found read id old).trans_le above
  · rw [result, next_ledger_id_put_info, moves] at laterFound
    cases laterFound
    exact Nat.lt_succ_self _

theorem Opens.cached : after.ledgers name = some ledger := by
  rw [opens.ledgers, update_self]

theorem Opens.confined (cursorName : Text) :
    Confined (Owns storage name) name cursorName storage after where
  ledgers other different := by rw [opens.ledgers, update_of_ne different]
  keys key notAllocator notLedger _ _ := opens.rewritten.frame key notAllocator notLedger
  cursor := .inl (opens.rewritten.frame _ (cursor_key_ne_allocator_key _ _)
    (cursor_key_ne_ledger_key _ _))
  entries ledgerId entryId := .inr (opens.rewritten.frame _
    (entry_key_ne_allocator_key _ _) (ledger_key_ne_entry_key _ _ _).symm)
  openIds id opened := by
    obtain ⟨other, cached, known⟩ := opened
    rw [opens.cached] at cached
    cases cached
    exact opens.owns known
  counter := opens.rewritten.ahead
  files := by
    rw [opens.entryLog]
    exact .refl _

end

theorem current_known (nonempty : info.ledgers ≠ []) : info.Knows info.currentLedger.ledgerId := by
  refine ⟨info.currentLedger, ?_, rfl⟩
  unfold currentLedger
  rw [getLastD_eq_getLast?, getLast?_eq_some_getLast nonempty]
  exact getLast_mem nonempty

theorem Opens.writing (opens : Opens name storage ledger after) :
    ledger.info.Knows ledger.runtime.currentLedgerId := by
  obtain ⟨_, _, _, _, _, initialized, _⟩ := opens.initialized
  rw [opens.runtime]
  exact current_known initialized.nonempty

theorem Opens.housed (opens : Opens name storage ledger after) (housed : Housed storage)
    (fits : IdsFit after.db) : Housed after := by
  have counted := opens.counted housed
  have stored id : StoredId after.db name id → ledger.info.Knows id :=
    fun stored => stored_id_of_encode opens.rewritten.key counted fits stored
  apply housed.confined (opens.confined [])
  · exact fun id found => opens.owns (stored id found)
  · intro next id found uses
    obtain ⟨later, laterFound, below⟩ := counted
    rw [found] at laterFound
    cases laterFound
    obtain ⟨other, cached, known⟩ | inDb := uses
    · rw [opens.cached] at cached
      cases cached
      exact below id known
    · exact below id (stored id inDb)
  · intro other cached
    rw [opens.cached] at cached
    cases cached
    exact ⟨opens.named, opens.writing⟩
  · rw [opens.entryLog]
    exact housed.aligned
  · rw [opens.entryLog]
    intro ledgerId entryId value found
    rw [opens.rewritten.frame _ (entry_key_ne_allocator_key _ _)
      (ledger_key_ne_entry_key _ _ _).symm] at found
    exact housed.held ledgerId entryId value found

theorem topic_ledger_confined (housed : Housed storage) (topic cursorName : Text) :
    Confined (Owns storage (managedLedgerName topic)) (managedLedgerName topic) cursorName
      storage (topicLedger topic storage).2 := by
  obtain same | ⟨ledger, _, opens⟩ := topic_ledger_cases housed topic
  · rw [same]
    exact .refl (owns_open storage _) cursorName
  · exact opens.confined cursorName

theorem topic_ledger_housed (housed : Housed storage) (topic : Text)
    (fits : IdsFit (topicLedger topic storage).2.db) : Housed (topicLedger topic storage).2 := by
  obtain same | ⟨ledger, _, opens⟩ := topic_ledger_cases housed topic
  · rw [same]
    exact housed
  · exact opens.housed housed fits

theorem topic_ledger_in_cache {topic storage ledger}
    (found : topicLedger topic storage = (.ok ledger, opened)) :
    opened.ledgers (managedLedgerName topic) = some ledger := by
  unfold topicLedger openLedger getOrOpenLedger at found
  generalize managedLedgerName topic = name at found ⊢
  cases cached : storage.ledgers name with
  | some other =>
    simp only [cached, Prod.mk.injEq, ok.injEq] at found
    rw [← found.1, ← found.2]
    exact cached
  | none =>
    simp only [cached] at found
    cases outcome : openWithConfig .none name storage.db storage.config with
    | error failure => simp [outcome] at found
    | ok pair =>
      simp only [outcome, Prod.mk.injEq, ok.injEq] at found
      rw [← found.1, ← found.2]
      exact update_self _ _ _

section

variable {start current : Assignment}

/-- The loop of an append, as far as ledger ids go. -/
structure Placing (start current : Assignment) : Prop where
  writing : current.nextInfo.Knows current.curId
  ids : ∀ id, current.nextInfo.Knows id → start.nextInfo.Knows id ∨ Fresh start.db id
  placed : ∀ position ∈ current.positions, current.nextInfo.Knows position.ledgerId
  moved : AllocatorMoved start.db current.db
  counted : Counted current.nextInfo current.db
  entries : List.Forall₂ (fun position entry => EntryToAppend.ledgerId entry =
    ManagedLedgerPosition.ledgerId position ∧ entry.entryId = position.entryId)
    current.positions current.toAppend

theorem placing_start {ledger} (events) (known : ledger.info.Knows ledger.runtime.currentLedgerId)
    (counted : Counted ledger.info db) :
    Placing (startAssignment ledger db events) (startAssignment ledger db events) where
  writing := known
  ids _ old := .inl old
  placed _ impossible := by cases impossible
  moved := AllocatorMoved.refl _
  counted := counted
  entries := List.Forall₂.nil

theorem Placing.roll {after : Assignment} (placing : Placing start current)
    (rolled : rollIfFull maxEntries current = .ok after) : Placing start after := by
  obtain ⟨_, rfl⟩ | ⟨id, db, _, allocated, rfl⟩ := roll_if_full_cases rolled
  · exact placing
  obtain ⟨moved, counted, larger⟩ := allocate_ok_moved allocated
  exact {
    writing := ⟨StoredLedgerInfo.new id, mem_roll_over.mpr (.inr rfl), rfl⟩
    ids other known := by
      obtain ⟨ledger, member, same⟩ := known
      obtain old | rfl := mem_roll_over.mp member
      · exact placing.ids other ⟨ledger, old, same⟩
      · right
        intro first firstFound
        obtain ⟨later, laterFound, above⟩ := placing.moved.ahead first firstFound
        exact same ▸ above.trans (larger later laterFound)
    placed position member := by
      obtain ⟨ledger, inside, same⟩ := placing.placed position member
      exact ⟨ledger, mem_roll_over.mpr (.inl inside), same⟩
    moved := placing.moved.trans moved
    counted := by
      obtain ⟨next, found, below⟩ := placing.counted
      refine ⟨id + 1, counted, ?_⟩
      intro other known
      obtain ⟨ledger, member, same⟩ := known
      obtain old | rfl := mem_roll_over.mp member
      · have small := below other ⟨ledger, old, same⟩
        have large := larger next found
        omega
      · rw [← same]
        exact Nat.lt_succ_self id
    entries := placing.entries }

theorem knows_modify_current (nonempty : info.ledgers ≠ [])
    (change : StoredLedgerInfo → StoredLedgerInfo)
    (keeps : ∀ ledger, (change ledger).ledgerId = ledger.ledgerId) (id : Nat) :
    (info.modifyCurrentLedger change).Knows id ↔ info.Knows id := by
  have last : info.currentLedger = info.ledgers.getLast nonempty := by
    unfold currentLedger
    rw [getLastD_eq_getLast?, getLast?_eq_some_getLast nonempty]
    rfl
  have ids : (info.modifyCurrentLedger change).ledgers.map ledgerId =
      info.ledgers.map ledgerId := by
    conv_rhs => rw [← dropLast_append_getLast nonempty]
    simp [modifyCurrentLedger, keeps, last]
  have known (other : StoredManagedLedgerInfo) :
      other.Knows id ↔ id ∈ other.ledgers.map ledgerId := by
    rw [mem_map]
    rfl
  rw [known, known, ids]

theorem Placing.place (placing : Placing start current) (item : Item) :
    Placing start (placeItem current item) := by
  have nonempty : current.nextInfo.ledgers ≠ [] := by
    obtain ⟨ledger, member, _⟩ := placing.writing
    exact ne_nil_of_mem member
  have same : ∀ id, (placeItem current item).nextInfo.Knows id ↔ current.nextInfo.Knows id :=
    knows_modify_current nonempty _ fun _ => rfl
  exact {
    writing := (same _).mpr placing.writing
    ids id known := placing.ids id ((same id).mp known)
    placed position member := by
      apply (same _).mpr
      obtain old | new := mem_append.mp member
      · exact placing.placed position old
      · rw [mem_singleton.mp new]
        exact placing.writing
    moved := placing.moved
    counted := by
      obtain ⟨next, found, below⟩ := placing.counted
      exact ⟨next, found, fun id known => below id ((same id).mp known)⟩
    entries := rel_append placing.entries (List.Forall₂.cons ⟨rfl, rfl⟩ List.Forall₂.nil) }

theorem assign_items_placing {after items} (placing : Placing start start)
    (assigned : assignItems maxEntries start items = .ok after) : Placing start after := by
  have step (done : List Item) (item : Item) (current next : Assignment) :
      Placing start current → assignItem maxEntries current item = .ok next →
        Placing start next := by
    intro holds taken
    obtain ⟨rolled, before, later⟩ := bind_eq_ok.mp taken
    exact ((holds.roll before).place item).roll later
  exact foldlM_invariant step items [] start after placing assigned

theorem put_locations_cases (pairs : List (ManagedLedgerPosition × EntryIndex)) (db : Db)
    (key : Text) :
    putLocations db pairs key = db key ∨ ∃ pair ∈ pairs,
      key = managedEntryKey pair.1.ledgerId pair.1.entryId ∧
        putLocations db pairs key = some (.entryLocation (locationOf pair.2)) := by
  induction pairs generalizing db with
  | nil => exact .inl rfl
  | cons pair pairs ih =>
    rw [putLocations]
    rcases ih (db.put (managedEntryKey pair.1.ledgerId pair.1.entryId)
      (.entryLocation (locationOf pair.2))) with same | ⟨later, member, here, value⟩
    · rw [same]
      by_cases here : key = managedEntryKey pair.1.ledgerId pair.1.entryId
      · right
        refine ⟨pair, mem_cons_self, here, ?_⟩
        rw [here, Db.put_self]
      · exact .inl (Db.put_of_ne here _ _)
    · exact .inr ⟨later, mem_cons_of_mem _ member, here, value⟩

theorem zip_related {α β γ : Type} {first : α → γ → Prop} {second : β → γ → Prop}
    {left right entries} (leftRelated : List.Forall₂ first left entries)
    (rightRelated : List.Forall₂ second right entries) {pair : α × β}
    (member : pair ∈ left.zip right) : ∃ entry, first pair.1 entry ∧ second pair.2 entry := by
  induction leftRelated generalizing right with
  | nil => cases member
  | cons head _ ih =>
    cases rightRelated with
    | cons other rest =>
      obtain rfl | later := mem_cons.mp member
      · exact ⟨_, head, other⟩
      · exact ih rest later

variable {faults : AppendFaults} {items : List Item} {assigned : Assignment}
  {outcome : AppendOutcome}

def settled (storage : RocksDbManagedLedgerStorage) (name : Text) (outcome : AppendOutcome) :
    RocksDbManagedLedgerStorage := { storage with
  db := outcome.db
  entryLog := outcome.entryLog
  ledgers := update storage.ledgers name (some outcome.ledger) }

theorem settled_ledger : (settled storage name outcome).ledgers name = some outcome.ledger :=
  update_self _ _ _

structure Standing (storage : RocksDbManagedLedgerStorage) (name : Text)
    (ledger : RocksDBManagedLedger) : Prop where
  cached : storage.ledgers name = some ledger
  named : ledger.name = name
  writing : ledger.info.Knows ledger.runtime.currentLedgerId
  counted : Counted ledger.info storage.db

theorem Housed.standing (housed : Housed storage) (cached : storage.ledgers name = some ledger) :
    Standing storage name ledger where
  cached := cached
  named := (housed.named name ledger cached).1
  writing := (housed.named name ledger cached).2
  counted := by
    obtain ⟨next, found, below⟩ := housed.counted
    exact ⟨next, found, fun id known => below name id (.inl ⟨ledger, cached, known⟩)⟩

theorem Opens.standing {after} (opens : Opens name storage ledger after) (housed : Housed storage) :
    Standing after name ledger where
  cached := opens.cached
  named := opens.named
  writing := opens.writing
  counted := opens.counted housed

theorem topic_ledger_standing {topic : Text} (housed : Housed storage)
    (found : topicLedger topic storage = (.ok ledger, opened)) :
    Standing opened (managedLedgerName topic) ledger := by
  have cached := topic_ledger_in_cache found
  obtain same | ⟨other, result, opens⟩ := topic_ledger_cases housed topic
  · rw [found] at same
    subst same
    exact housed.standing cached
  · rw [found] at result opens
    cases result
    exact opens.standing housed

theorem Standing.placing (standing : Standing storage name ledger)
    (committed : Committed faults ledger storage.db storage.entryLog items assigned indices
      outcome) :
    Placing (startAssignment ledger storage.db faults.allocations) assigned :=
  assign_items_placing (placing_start _ standing.writing standing.counted) committed.assignment

theorem committed_confined (standing : Standing storage name ledger) (cursorName : Text)
    (committed : Committed faults ledger storage.db storage.entryLog items assigned indices
      outcome) :
    Confined (Reaches storage name) name cursorName storage (settled storage name outcome) := by
  have placing := standing.placing committed
  have reaches id : assigned.nextInfo.Knows id → Reaches storage name id := by
    intro known
    obtain old | fresh := placing.ids id known
    · exact .inl ⟨ledger, standing.cached, old⟩
    · exact .inr fresh
  have other key : key ≠ ledgerIdAllocatorKey → key ≠ managedLedgerKey name →
      (∀ position ∈ assigned.positions,
        key ≠ managedEntryKey position.ledgerId position.entryId) →
      outcome.db key = storage.db key := by
    intro notAllocator notLedger notEntry
    rw [committed.db_eq, standing.named, commit_other notLedger notEntry]
    exact placing.moved.frame key notAllocator
  exact {
    ledgers other different := update_of_ne different _ _
    keys key notAllocator notLedger _ notEntry :=
      other key notAllocator notLedger fun position _ => notEntry _ _
    cursor := .inl (other _ (cursor_key_ne_allocator_key _ _)
      (cursor_key_ne_ledger_key _ _) fun _ _ => cursor_key_ne_entry_key _ _ _ _)
    entries ledgerId entryId := by
      by_cases placed : ∃ position ∈ assigned.positions, position.ledgerId = ledgerId
      · obtain ⟨position, member, rfl⟩ := placed
        exact .inl (reaches _ (placing.placed position member))
      right
      apply other _ (entry_key_ne_allocator_key _ _) (ledger_key_ne_entry_key _ _ _).symm
      intro position member same
      exact placed ⟨position, member, (managed_entry_key_inj same).1.symm⟩
    openIds id opened := by
      obtain ⟨_, cached, known⟩ := opened
      cases settled_ledger.symm.trans cached
      rw [committed.ledger_eq] at known
      exact reaches id known
    counter next found := by
      obtain ⟨later, laterFound, above⟩ := placing.moved.ahead next found
      refine ⟨later, ?_, above⟩
      rw [settled, committed.db_eq, next_ledger_id_commit]
      exact laterFound
    files := committed.extends }

theorem refused_confined (cached : storage.ledgers name = some ledger) (cursorName : Text)
    (refused : Refused faults ledger storage.db storage.entryLog outcome) :
    Confined (Reaches storage name) name cursorName storage (settled storage name outcome) where
  ledgers other different := update_of_ne different _ _
  keys key notAllocator _ _ _ := refused.moved.frame key notAllocator
  cursor := .inl (refused.moved.frame _ (cursor_key_ne_allocator_key _ _))
  entries _ _ := .inr (refused.moved.frame _ (entry_key_ne_allocator_key _ _))
  openIds id opened := by
    obtain ⟨_, here, known⟩ := opened
    cases settled_ledger.symm.trans here
    rw [refused.ledger_eq] at known
    exact .inl ⟨ledger, cached, known⟩
  counter := refused.moved.ahead
  files := refused.extends

theorem append_items_empty (cached : storage.ledgers name = some ledger) (faults) :
    (appendItems faults name ledger [] storage).2 = storage := by
  simp only [appendItems, addEntriesWithPartitionAndMetadata, isEmpty_nil, if_true]
  rw [← cached, update_eq_self]

theorem append_items_confined (standing : Standing storage name ledger) (cursorName : Text)
    (faults items) :
    Confined (Reaches storage name) name cursorName storage
      (appendItems faults name ledger items storage).2 := by
  by_cases empty : items = []
  · rw [empty, append_items_empty standing.cached]
    exact Confined.refl (fun _ opened => .inl opened) cursorName
  · rcases add_entries_cases faults ledger storage.db storage.entryLog empty with
      refused | ⟨assigned, indices, committed⟩
    · exact refused_confined standing.cached cursorName refused
    · exact committed_confined standing cursorName committed

theorem committed_held (standing : Standing storage name ledger)
    (aligned : Aligned storage.entryLog) (held : Held storage.db storage.entryLog)
    (committed : Committed faults ledger storage.db storage.entryLog items assigned indices
      outcome) :
    Held outcome.db outcome.entryLog := by
  have placing := standing.placing committed
  intro ledgerId entryId value found
  rw [committed.db_eq] at found
  unfold commit at found
  rw [Db.put_of_ne (ledger_key_ne_entry_key _ _ _).symm] at found
  rcases put_locations_cases (assigned.positions.zip indices) assigned.db
    (managedEntryKey ledgerId entryId) with same | ⟨pair, member, here, located⟩
  · rw [same, placing.moved.frame _ (entry_key_ne_allocator_key _ _)] at found
    exact held_extends held committed.extends ledgerId entryId value found
  rw [located] at found
  obtain ⟨entry, ids, holds⟩ := zip_related placing.entries (committed.holds aligned) member
  obtain ⟨ledgers, entries⟩ := managed_entry_key_inj here
  have described := holds.1
  refine ⟨pair.2, entry, (Option.some.inj found).symm, ?_, ?_, holds⟩
  · rw [described, ledgers]
    exact ids.1
  · rw [described, entries]
    exact ids.2

variable (housed : Housed storage) (cached : storage.ledgers name = some ledger)
include housed cached

theorem committed_housed (aligned : Aligned outcome.entryLog)
    (committed : Committed faults ledger storage.db storage.entryLog items assigned indices outcome)
    (fits : IdsFit outcome.db) : Housed (settled storage name outcome) := by
  have standing := housed.standing cached
  have placing := standing.placing committed
  have confined := (committed_confined standing [] committed).of_reaches
  have counted : Counted assigned.nextInfo outcome.db := by
    obtain ⟨next, found, below⟩ := placing.counted
    refine ⟨next, ?_, below⟩
    rw [committed.db_eq, next_ledger_id_commit]
    exact found
  have key : outcome.db (managedLedgerKey name) =
      some (.managedLedgerInfo assigned.nextInfo.encode) := by
    rw [committed.db_eq, standing.named, commit_ledger_key]
  have stored id : StoredId outcome.db name id → assigned.nextInfo.Knows id :=
    fun stored => stored_id_of_encode key counted fits stored
  have published : (settled storage name outcome).ledgers name =
      some (publish ledger assigned) := by
    rw [settled_ledger, committed.ledger_eq]
  apply housed.confined confined
  · intro id inDb
    obtain old | fresh := placing.ids id (stored id inDb)
    · exact .inl (.inl ⟨ledger, cached, old⟩)
    · exact .inr fresh
  · intro next id found uses
    obtain ⟨later, laterFound, below⟩ := counted
    cases laterFound.symm.trans found
    obtain ⟨other, here, known⟩ | inDb := uses
    · cases published.symm.trans here
      exact below id known
    · exact below id (stored id inDb)
  · intro other here
    cases published.symm.trans here
    exact ⟨standing.named, placing.writing⟩
  · exact aligned
  · exact committed_held standing housed.aligned housed.held committed

theorem refused_housed (refused : Refused faults ledger storage.db storage.entryLog outcome)
    (aligned : Aligned outcome.entryLog) : Housed (settled storage name outcome) := by
  apply housed.keeps (refused_confined cached [] refused).of_reaches
  · rw [settled_ledger, refused.ledger_eq, cached]
  · rintro id ⟨stored, read, known⟩
    have frame := refused.moved.frame _ (ledger_key_ne_allocator_key name)
    exact ⟨stored, (congrArg storedInfo frame).symm.trans read, known⟩
  · exact aligned
  · intro ledgerId entryId value found
    have frame := refused.moved.frame _ (entry_key_ne_allocator_key ledgerId entryId)
    exact held_extends housed.held refused.extends ledgerId entryId value (frame.symm.trans found)

theorem append_items_housed (traceless : WriteFaults.Traceless faults.entryLog) (items : List Item)
    (fits : IdsFit (appendItems faults name ledger items storage).2.db) :
    Housed (appendItems faults name ledger items storage).2 := by
  have aligned := add_entries_aligned traceless housed.aligned ledger storage.db items
  by_cases empty : items = []
  · rw [empty, append_items_empty cached]
    exact housed
  · rcases add_entries_cases faults ledger storage.db storage.entryLog empty with
      refused | ⟨assigned, indices, committed⟩
    · exact refused_housed housed cached refused aligned
    · exact committed_housed housed cached aligned committed fits

end

def NotLedger (value : Option DbValue) : Prop :=
  ∀ info, value ≠ some (.managedLedgerInfo info)

theorem set_cursor_confined (topic subscription : Text) (other : NotLedger value) (storage) :
    Confined (Reaches storage (managedLedgerName topic)) (managedLedgerName topic)
      (encodeCursorName subscription) storage (setCursor topic subscription value storage) where
  ledgers _ _ := rfl
  keys key _ _ notCursor _ := set_cursor_frame topic subscription value storage notCursor
  cursor := by
    right
    intro info
    have here : (setCursor topic subscription value storage).db
        (cursorKey topic subscription) = value := update_self _ _ _
    show (setCursor topic subscription value storage).db (cursorKey topic subscription) ≠ _
    rw [here]
    exact other info
  entries ledgerId entryId := by
    right
    apply set_cursor_frame
    exact (cursor_key_ne_entry_key _ _ _ _).symm
  openIds _ opened := .inl opened
  counter next found := by
    refine ⟨next, ?_, le_refl _⟩
    rw [← found]
    apply next_ledger_id_frame
    exact set_cursor_frame topic subscription value storage (cursor_key_ne_allocator_key _ _).symm
  files := .refl _

theorem Housed.set_cursor (housed : Housed storage) (topic subscription : Text)
    (other : NotLedger value) : Housed (setCursor topic subscription value storage) := by
  apply housed.keeps (set_cursor_confined topic subscription other storage).of_reaches rfl
  · intro id inDb
    unfold StoredId at inDb
    rw [set_cursor_frame topic subscription value storage
      (cursor_key_ne_ledger_key _ _).symm] at inDb
    exact inDb
  · exact housed.aligned
  · intro ledgerId entryId found
    exact housed.held ledgerId entryId found

end PulsarLite.Storage.RocksDbManagedLedgerStorage
