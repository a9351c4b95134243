import PulsarLite.Storage.Serving

/-!
# What a reader sees of a ledger

A ledger that is opened may be given a new empty ledger id, which no reader can
tell. So the answers of a topic depend on the metadata it has, on its last
confirmed position and on the entries that these make visible, whether the
ledger is open already or opened by the reader.
-/

namespace PulsarLite.Storage

open Library Keys RocksDBManagedLedger List StoredManagedLedgerInfo

variable {info : StoredManagedLedgerInfo} {error : String}

namespace StoredManagedLedgerInfo

variable {ledgerId : Nat}

def entriesBefore (info : StoredManagedLedgerInfo) (ledgerId : Nat) : Nat :=
  ((info.ledgers.filter fun ledger =>
    decide (ledger.ledgerId < ledgerId)).map StoredLedgerInfo.entries).sum

structure Alike (left right : StoredManagedLedgerInfo) : Prop where
  first : ∀ partition, left.firstPosition partition = right.firstPosition partition
  next : ∀ position, left.nextPosition position = right.nextPosition position
  visible : ∀ position lac, isVisible position left lac =
    isVisible position right lac
  total : left.totalEntries = right.totalEntries
  before : ∀ ledgerId, left.entriesBefore ledgerId = right.entriesBefore ledgerId

theorem Alike.refl (info) : Alike info info where
  first _ := rfl
  next _ := rfl
  visible _ _ := rfl
  total := rfl
  before _ := rfl

theorem Alike.symm {left right} (alike : Alike left right) : Alike right left where
  first partition := (alike.first partition).symm
  next position := (alike.next position).symm
  visible position lac := (alike.visible position lac).symm
  total := alike.total.symm
  before ledgerId := (alike.before ledgerId).symm

theorem Alike.trans {left middle right} (first : Alike left middle) (second : Alike middle right) :
    Alike left right where
  first partition := (first.first partition).trans (second.first partition)
  next position := (first.next position).trans (second.next position)
  visible position lac := (first.visible position lac).trans (second.visible position lac)
  total := first.total.trans second.total
  before ledgerId := (first.before ledgerId).trans (second.before ledgerId)

theorem next_position_roll_over (below : ∀ id, info.Knows id → id < ledgerId) (position) :
    info.nextPosition position = (info.rollOverCurrentLedger ledgerId).nextPosition position := by
  have later : (info.rollOverCurrentLedger ledgerId).ledgers.find? (fun ledger =>
      decide (position.ledgerId < ledger.ledgerId ∧ 0 < ledger.entries)) =
      info.ledgers.find? fun ledger =>
        decide (position.ledgerId < ledger.ledgerId ∧ 0 < ledger.entries) := by
    simp [rollOverCurrentLedger, List.find?_append, StoredLedgerInfo.new]
  unfold nextPosition
  rw [later]
  cases found : info.ledgers.find? fun ledger => decide (ledger.ledgerId = position.ledgerId) with
  | some ledger => simp [rollOverCurrentLedger, List.find?_append, found]
  | none =>
    by_cases same : ledgerId = position.ledgerId
    · have nothing : (info.ledgers.find? fun ledger =>
          decide (position.ledgerId < ledger.ledgerId ∧ 0 < ledger.entries)) = none := by
        rw [List.find?_eq_none]
        intro ledger member
        have smaller := below ledger.ledgerId ⟨ledger, member, rfl⟩
        simp only [decide_eq_true_eq, not_and]
        omega
      rw [nothing]
      simp [rollOverCurrentLedger, List.find?_append, found, StoredLedgerInfo.new, same]
    · simp [rollOverCurrentLedger, List.find?_append, found, StoredLedgerInfo.new, same]

theorem alike_roll_over (below : ∀ id, info.Knows id → id < ledgerId) :
    Alike info (info.rollOverCurrentLedger ledgerId) where
  first partition := by
    simp [firstPosition, rollOverCurrentLedger, List.find?_append, StoredLedgerInfo.new]
  next := next_position_roll_over below
  visible position lac := by
    simp [isVisible, rollOverCurrentLedger, StoredLedgerInfo.new]
  total := by simp [totalEntries, rollOverCurrentLedger, StoredLedgerInfo.new]
  before bound := by
    by_cases inside : ledgerId < bound
    all_goals simp [entriesBefore, rollOverCurrentLedger, StoredLedgerInfo.new, inside]

end StoredManagedLedgerInfo

namespace RocksDBManagedLedger

variable {name : Text}

/-- The metadata under the key of a ledger, with no ledger at all if there is
nothing. -/
def storedInfo : Option DbValue → Except String StoredManagedLedgerInfo
  | none => .ok { ledgers := [] }
  | some (.managedLedgerInfo info) => decode info
  | some _ => .error "failed to decode Protobuf message"

theorem lac_roll_over (info ledgerId) (db : Db) :
    lacFromInfoAndDb (info.rollOverCurrentLedger ledgerId) db = lacFromInfoAndDb info db := by
  simp [lacFromInfoAndDb, rollOverCurrentLedger, StoredLedgerInfo.new]

theorem lac_frame {left right : Db}
    (same : ∀ ledgerId entryId, info.Knows ledgerId → left (managedEntryKey ledgerId entryId)
      = right (managedEntryKey ledgerId entryId)) :
    lacFromInfoAndDb info left = lacFromInfoAndDb info right := by
  unfold lacFromInfoAndDb
  cases found : info.ledgers.reverse.find? fun ledger => decide (0 < ledger.entries) with
  | none => rfl
  | some ledger =>
    have member := mem_reverse.mp (mem_of_find?_eq_some found)
    simp only [same ledger.ledgerId (ledger.entries - 1) ⟨ledger, member, rfl⟩]

/-- The metadata that an opening ends up with: as it is stored, or with one new
ledger. -/
inductive Initialized (next : Nat) (db : Db) (stored : StoredManagedLedgerInfo) :
    StoredManagedLedgerInfo → Db → Prop
  | kept (some : stored.ledgers ≠ []) : Initialized next db stored stored db
  | extended : Initialized next db stored (stored.rollOverCurrentLedger next)
      (db.put ledgerIdAllocatorKey (.nextLedgerId (next + 1)))

theorem roll_full_info_new (config) (ledgerId : Nat) (db : Db) :
    rollFullInfo .quiet (configuredMax config) { ledgers := [.new ledgerId] } db =
      .ok ({ ledgers := [.new ledgerId] }, db) := by
  have room : currentLedgerIsFull { ledgers := [.new ledgerId] }
      (configuredMax config) = false := by
    simp [currentLedgerIsFull, currentLedger, StoredLedgerInfo.new, configuredMax]
  simp [rollFullInfo, room]

variable {next : Nat}

theorem initialized_quiet {db : Db} (found : nextLedgerId db = .ok next) (name : Text) (config)
    {stored} (read : storedInfo (db (managedLedgerKey name)) = .ok stored) :
    ∃ info after, Initialized next db stored info after ∧
      (loadInfo .quiet name db >>= fun loaded =>
        initializeInfo .quiet loaded.1 loaded.2 >>= fun started =>
          rollFullInfo .quiet (configuredMax config) started.1 started.2) = .ok (info, after) := by
  have allocated := allocate_quiet found
  cases value : db (managedLedgerKey name) with
  | none =>
    rw [value] at read
    cases Except.ok.inj read
    refine ⟨_, _, Initialized.extended, ?_⟩
    have load : loadInfo .quiet name db = .ok (StoredManagedLedgerInfo.new next,
        db.put ledgerIdAllocatorKey (.nextLedgerId (next + 1))) := by
      simp only [loadInfo, value, allocated]
      rfl
    rw [load]
    exact roll_full_info_new config next _
  | some value' =>
    rw [value] at read
    cases value' with
    | managedLedgerInfo proto =>
      have decoded : decode proto = .ok stored := read
      have load : loadInfo .quiet name db = .ok (stored, db) := by
        simp only [loadInfo, value, decoded]
      rw [load]
      by_cases empty : stored.ledgers = []
      · refine ⟨_, _, Initialized.extended, ?_⟩
        have start : initializeInfo .quiet stored db = .ok
            ({ ledgers := [StoredLedgerInfo.new next] },
              db.put ledgerIdAllocatorKey (.nextLedgerId (next + 1))) := by
          simp only [initializeInfo, empty, isEmpty_nil, if_true, allocated, ensureInitialized]
          rfl
        have rolled : stored.rollOverCurrentLedger next =
            { ledgers := [StoredLedgerInfo.new next] } := by
          simp [rollOverCurrentLedger, empty]
        rw [rolled]
        show (initializeInfo .quiet stored db >>= fun started =>
          rollFullInfo .quiet (configuredMax config) started.1 started.2) = _
        rw [start]
        exact roll_full_info_new config next _
      · have start : initializeInfo .quiet stored db = .ok (stored, db) := by
          simp [initializeInfo, empty]
        show ∃ info after, Initialized next db stored info after ∧
          (initializeInfo .quiet stored db >>= fun started =>
            rollFullInfo .quiet (configuredMax config) started.1 started.2) = .ok (info, after)
        rw [start]
        show ∃ info after, Initialized next db stored info after ∧
          rollFullInfo .quiet (configuredMax config) stored db = .ok (info, after)
        unfold rollFullInfo
        split_ifs
        · rw [allocated]
          exact ⟨_, _, Initialized.extended, rfl⟩
        · exact ⟨_, _, Initialized.kept empty, rfl⟩
    | nextLedgerId | managedCursorInfo | entryLocation => cases read

theorem load_info_error {db : Db} (event)
    (read : storedInfo (db (managedLedgerKey name)) = .error error) :
    loadInfo event name db = .error (error, db) := by
  unfold loadInfo
  generalize db (managedLedgerKey name) = value at read
  cases value with
  | none => cases read
  | some value =>
    cases value with
    | managedLedgerInfo proto =>
      have failed : decode proto = .error error := read
      simp only [failed]
    | nextLedgerId | managedCursorInfo | entryLocation => cases read; rfl

variable {db after : Db} {stored : StoredManagedLedgerInfo}

section

variable (initialized : Initialized next db stored info after)
include initialized

theorem Initialized.alike (below : ∀ id, stored.Knows id → id < next) : Alike stored info := by
  cases initialized with
  | kept => exact Alike.refl _
  | extended => exact alike_roll_over below

theorem Initialized.lac (reader : Db) :
    lacFromInfoAndDb info reader = lacFromInfoAndDb stored reader := by
  cases initialized with
  | kept => rfl
  | extended => exact lac_roll_over stored next reader

theorem Initialized.moved (found : nextLedgerId db = .ok next) : AllocatorMoved db after := by
  cases initialized with
  | kept => exact .refl db
  | extended => exact (allocate_ok_moved (allocate_quiet found)).1

theorem Initialized.nonempty : info.ledgers ≠ [] := by
  cases initialized with
  | kept some => exact some
  | extended => simp [rollOverCurrentLedger]

theorem Initialized.knows (found : nextLedgerId db = .ok next) {id : Nat} (known : info.Knows id) :
    stored.Knows id ∨ id = next ∧ nextLedgerId after = .ok (next + 1) := by
  cases initialized with
  | kept => exact .inl known
  | extended =>
    obtain ⟨ledger, member, same⟩ := known
    obtain old | rfl := mem_roll_over.mp member
    · exact .inl ⟨ledger, old, same⟩
    · right
      exact ⟨same.symm, (allocate_ok_moved (allocate_quiet found)).2.1⟩

end

/-- An opening without faults answers with the stored metadata, up to a new
ledger, and with the last confirmed position of these. -/
theorem open_quiet {db : Db} (found : nextLedgerId db = .ok next) (name : Text) (config) {stored}
    (read : storedInfo (db (managedLedgerKey name)) = .ok stored) :
    ∃ info moved, Initialized next db stored info moved ∧
      openWithConfig .none name db config =
        match lacFromInfoAndDb stored db with
        | .error error => .error (error,
            moved.put (managedLedgerKey name) (.managedLedgerInfo info.encode))
        | .ok lac => .ok ({
            name := name
            maxEntriesPerLedger := configuredMax config
            info := info
            lac := lac
            runtime := runtimeFromInfo info },
            moved.put (managedLedgerKey name) (.managedLedgerInfo info.encode)) := by
  obtain ⟨info, moved, initialized, stages⟩ := initialized_quiet found name config read
  refine ⟨info, moved, initialized, ?_⟩
  have written : lacFromInfoAndDb info
      (moved.put (managedLedgerKey name) (.managedLedgerInfo info.encode)) =
      lacFromInfoAndDb stored db := by
    rw [initialized.lac]
    apply lac_frame
    intro ledgerId entryId _
    exact (initialized.moved found).frame _ (entry_key_ne_allocator_key _ _)
  obtain ⟨loaded, load, stages⟩ := bind_eq_ok.mp stages
  obtain ⟨started, start, roll⟩ := bind_eq_ok.mp stages
  rw [← written]
  cases confirmed : lacFromInfoAndDb info
      (moved.put (managedLedgerKey name) (.managedLedgerInfo info.encode)) with
  | error | ok =>
    simp [openWithConfig, OpenFaults.none, load, start, roll, bind, Except.bind, confirmed]

theorem open_quiet_error {db : Db} (config)
    (read : storedInfo (db (managedLedgerKey name)) = .error error) :
    openWithConfig .none name db config = .error (error, db) := by
  unfold openWithConfig
  simp only [OpenFaults.none, getD_nil, load_info_error .quiet read, bind, Except.bind]

variable {left right : RocksDBManagedLedger} {leftDb rightDb : Db}
  {leftLog rightLog : EntryLogStore}

/-- Two databases give the same records for every entry that the metadata make
visible. -/
def FetchAlike (info : StoredManagedLedgerInfo) (leftDb : Db) (leftLog : EntryLogStore)
    (rightDb : Db) (rightLog : EntryLogStore) : Prop :=
  ∀ position, info.Stores position →
    readEntryRecord leftDb leftLog position.ledgerId position.entryId =
      readEntryRecord rightDb rightLog position.ledgerId position.entryId

theorem FetchAlike.visible (fetched : FetchAlike info leftDb leftLog rightDb rightLog)
    {position lac} (visible : isVisible position info lac = true) :
    readEntryRecord leftDb leftLog position.ledgerId position.entryId =
      readEntryRecord rightDb rightLog position.ledgerId position.entryId :=
  fetched position ((is_visible_iff _ _ _).mp visible).2

variable {leftInfo rightInfo : StoredManagedLedgerInfo}

theorem Alike.stores (alike : Alike leftInfo rightInfo) (position) :
    leftInfo.Stores position ↔ rightInfo.Stores position := by
  have visible := alike.visible position position
  rw [Bool.eq_iff_iff, is_visible_iff, is_visible_iff] at visible
  simpa using visible

theorem FetchAlike.alike (fetched : FetchAlike leftInfo leftDb leftLog rightDb rightLog)
    (alike : Alike leftInfo rightInfo) : FetchAlike rightInfo leftDb leftLog rightDb rightLog :=
  fun position stores => fetched position ((Alike.stores alike position).mpr stores)

theorem read_loop_alike (alike : Alike leftInfo rightInfo)
    (fetched : FetchAlike leftInfo leftDb leftLog rightDb rightLog) (lac) (limit fuel : Nat)
    (position out) :
    readLoop leftDb leftLog leftInfo lac limit fuel position out =
      readLoop rightDb rightLog rightInfo lac limit fuel position out := by
  induction fuel generalizing position out with
  | zero => rfl
  | succ fuel ih =>
    cases position with
    | none => rfl
    | some position =>
      unfold readLoop
      rw [← alike.visible, ← alike.next]
      by_cases visible : isVisible position leftInfo lac = true
      · rw [fetched.visible visible]
        simp only [ih]
      · simp only [visible, Bool.false_eq_true, if_false, ih]

variable (lac : left.lac = right.lac) (alike : Alike left.info right.info)
  (fetched : FetchAlike left.info leftDb leftLog rightDb rightLog)
include lac alike fetched

theorem read_entries_from_alike (start)
    (limit : Nat) : left.readEntriesFrom leftDb leftLog start limit =
      right.readEntriesFrom rightDb rightLog start limit := by
  unfold readEntriesFrom
  simp only [lac, alike.total, read_loop_alike alike fetched]

theorem get_message_entry_by_id_alike (messageId : MessageId) :
    left.getMessageEntryById leftDb leftLog messageId =
      right.getMessageEntryById rightDb rightLog messageId := by
  unfold getMessageEntryById messageEntryAt
  rw [lac]
  cases right.lac with
  | none => rfl
  | some last =>
    simp only [← alike.visible]
    by_cases visible : isVisible messageId.toPosition left.info last = true
    · have same := fetched.visible visible
      simp only [MessageId.toPosition] at same
      simp only [same]
    · simp only [visible, Bool.false_eq_true, if_false]

end RocksDBManagedLedger

namespace RocksDbManagedLedgerStorage

variable {left right : StoredManagedLedgerInfo}

section

variable (alike : Alike left right)
include alike

theorem walk_unacked_alike (lac state) (fuel : Nat) (position) :
    walkUnacked left lac state fuel position = walkUnacked right lac state fuel position := by
  induction fuel generalizing position with
  | zero => rfl
  | succ fuel ih =>
    cases position with
    | none => rfl
    | some position =>
      unfold walkUnacked
      rw [← alike.next, ih]

theorem first_unacked_of_alike (lac state) :
    firstUnackedOf left lac state = firstUnackedOf right lac state := by
  have candidate : firstCandidate left state = firstCandidate right state := by
    unfold firstCandidate
    simp only [alike.next, alike.first]
  unfold firstUnackedOf
  rw [alike.total, candidate, walk_unacked_alike alike]

theorem backlog_of_alike (state) : backlogOf left state = backlogOf right state := by
  have before := alike.before
  simp only [entriesBefore] at before
  unfold backlogOf
  simp only [alike.total, before]

end

inductive Query
  | readEntriesFrom (start : ManagedLedgerPosition) (limit : Nat)
  | getMessageEntryById (messageId : MessageId)
  | isAcknowledged (messageId : MessageId)
  | firstUnackedPosition
  | backlogEntries
deriving DecidableEq

inductive Answer
  | entries (result : Except TopicReadError (List StoredMessage))
  | message (result : Option StoredMessage)
  | acknowledged (result : Bool)
  | position (result : Except String (Option ManagedLedgerPosition))
  | backlog (result : Option Nat)

def ask (topic subscription : Text) (storage : RocksDbManagedLedgerStorage) : Query → Answer
  | .readEntriesFrom start limit => .entries (readEntriesFrom topic start limit storage).1
  | .getMessageEntryById messageId => .message (getMessageEntryById topic messageId storage).1
  | .isAcknowledged messageId =>
    .acknowledged (isAcknowledged topic subscription messageId storage).1
  | .firstUnackedPosition => .position (firstUnackedPosition topic subscription storage).1
  | .backlogEntries => .backlog (backlogEntries topic subscription storage).1

variable {topic subscription : Text} {left right leftOpened rightOpened :
  RocksDbManagedLedgerStorage} {leftLedger rightLedger : RocksDBManagedLedger}

theorem ask_error (leftFails : topicLedger topic left = (.error error, leftOpened))
    (rightFails : topicLedger topic right = (.error error, rightOpened)) (query : Query) :
    ask topic subscription left query = ask topic subscription right query := by
  cases query with
  | readEntriesFrom start limit => simp [ask, readEntriesFrom, leftFails, rightFails]
  | getMessageEntryById messageId => simp [ask, getMessageEntryById, leftFails, rightFails]
  | isAcknowledged messageId =>
    simp [ask, isAcknowledged, isAcknowledgedShared, readCursor, leftFails, rightFails]
  | firstUnackedPosition => simp [ask, firstUnackedPosition, leftFails, rightFails]
  | backlogEntries => simp [ask, backlogEntries, readCursor, leftFails, rightFails]

theorem ask_alike (leftOpens : topicLedger topic left = (.ok leftLedger, leftOpened))
    (rightOpens : topicLedger topic right = (.ok rightLedger, rightOpened))
    (lac : leftLedger.lac = rightLedger.lac) (alike : Alike leftLedger.info rightLedger.info)
    (cursor : cursorState topic subscription leftOpened =
      cursorState topic subscription rightOpened)
    (fetched : FetchAlike leftLedger.info leftOpened.db leftOpened.entryLog rightOpened.db
      rightOpened.entryLog)
    (query : Query) : ask topic subscription left query = ask topic subscription right query := by
  cases query with
  | readEntriesFrom start limit =>
    simp only [ask, readEntriesFrom, leftOpens, rightOpens,
      read_entries_from_alike lac alike fetched]
  | getMessageEntryById messageId =>
    simp only [ask, getMessageEntryById, leftOpens, rightOpens,
      get_message_entry_by_id_alike lac alike fetched]
  | isAcknowledged messageId =>
    simp only [ask, isAcknowledged, isAcknowledgedShared, readCursor, leftOpens, rightOpens,
      topic_cursor_eq, cursor]
    cases cursorState topic subscription rightOpened with
    | error | ok => rfl
  | firstUnackedPosition =>
    simp only [ask, firstUnackedPosition, leftOpens, rightOpens, topic_cursor_eq, cursor, lac]
    cases rightLedger.lac with
    | none => rfl
    | some last =>
      cases cursorState topic subscription rightOpened with
      | error error => rfl
      | ok state => simp only [Except.map, cursorWith, first_unacked_of_alike alike]
  | backlogEntries =>
    simp only [ask, backlogEntries, readCursor, leftOpens, rightOpens, topic_cursor_eq, cursor]
    cases cursorState topic subscription rightOpened with
    | error error => rfl
    | ok state => simp only [Except.map, cursorWith, backlog_of_alike alike]

/-- The metadata and the last confirmed position that answer for a ledger, open
or not. -/
def viewed (name : Text) (storage : RocksDbManagedLedgerStorage) :
    Except String (StoredManagedLedgerInfo × Option ManagedLedgerPosition) :=
  match storage.ledgers name with
  | some ledger => .ok (ledger.info, ledger.lac)
  | none => do
      let stored ← storedInfo (storage.db (managedLedgerKey name))
      let lac ← lacFromInfoAndDb stored storage.db
      return (stored, lac)

/-- The ledger that an operation works on, with the storage it is in then. -/
structure Shows (name : Text) (storage : RocksDbManagedLedgerStorage)
    (info : StoredManagedLedgerInfo) (ledger : RocksDBManagedLedger)
    (opened : RocksDbManagedLedgerStorage) : Prop where
  view : viewed name storage = .ok (info, ledger.lac)
  alike : Alike info ledger.info
  entryLog : opened.entryLog = storage.entryLog
  frame : ∀ key, key ≠ ledgerIdAllocatorKey → key ≠ managedLedgerKey name →
    opened.db key = storage.db key

theorem topic_ledger_shows {storage next} (found : nextLedgerId storage.db = .ok next)
    (below : ∀ stored,
      storedInfo (storage.db (managedLedgerKey (managedLedgerName topic))) = .ok stored →
        ∀ id, stored.Knows id → id < next) :
    (∃ error opened, topicLedger topic storage = (.error error, opened) ∧
      viewed (managedLedgerName topic) storage = .error error) ∨
    ∃ info ledger opened, topicLedger topic storage = (.ok ledger, opened) ∧
      Shows (managedLedgerName topic) storage info ledger opened := by
  generalize nameEq : managedLedgerName topic = name at below
  unfold topicLedger openLedger getOrOpenLedger viewed
  rw [nameEq]
  cases cached : storage.ledgers name with
  | some ledger =>
    refine .inr ⟨ledger.info, ledger, storage, rfl, ?_⟩
    exact {
      view := by simp [viewed, cached]
      alike := Alike.refl _
      entryLog := rfl
      frame _ _ _ := rfl }
  | none =>
    cases read : storedInfo (storage.db (managedLedgerKey name)) with
    | error error =>
      left
      simp only [open_quiet_error storage.config read]
      exact ⟨error, _, rfl, rfl⟩
    | ok stored =>
      obtain ⟨info, moved, initialized, opened⟩ := open_quiet found name storage.config read
      have rewritten := rewritten_of_moved (initialized.moved found) name info
      simp only [opened]
      cases confirmed : lacFromInfoAndDb stored storage.db with
      | error error => exact .inl ⟨error, _, rfl, by simp [confirmed, bind, Except.bind]⟩
      | ok lac =>
        refine .inr ⟨stored, _, _, rfl, ?_⟩
        exact {
          view := by simp [viewed, cached, read, confirmed, bind, Except.bind, pure, Except.pure]
          alike := initialized.alike (below stored read)
          entryLog := rfl
          frame := rewritten.frame }

end RocksDbManagedLedgerStorage

end PulsarLite.Storage
