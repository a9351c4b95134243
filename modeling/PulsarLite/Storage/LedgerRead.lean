import PulsarLite.Storage.Append

/-!
# Reading a ledger

Readers load the last confirmed position and then the metadata, decide from these
which positions are visible, and fetch each entry through its location in the
database. Between appends every visible entry is fetched as it was committed.
-/

namespace PulsarLite.Storage

open ManagedLedgerPosition List MessageId

/-- A message as it comes from the wire: the partition is an `i32`, and a frame
has a four-byte length. -/
def Item.Framed (item : Item) : Prop :=
  -(2 ^ 31) ≤ item.partition ∧ item.partition < 2 ^ 31 ∧ item.metadata.length < 2 ^ 32 ∧
    item.payload.length < 2 ^ 32

instance (item : Item) : Decidable item.Framed := inferInstanceAs (Decidable (_ ∧ _ ∧ _ ∧ _))

namespace RocksDBManagedLedger

open StoredManagedLedgerInfo EntryLogStore

variable {pos : ManagedLedgerPosition}

def isVisible (pos : ManagedLedgerPosition) (info : StoredManagedLedgerInfo)
    (lac : ManagedLedgerPosition) : Bool :=
  if lac < pos then false
  else info.ledgers.any fun ledger =>
    decide (ledger.ledgerId = pos.ledgerId ∧ pos.entryId < ledger.entries)

def loadEntryIndex (db : Db) (ledgerId entryId : Nat) : Except ReadFailure (Option EntryIndex) :=
  match db (Keys.managedEntryKey ledgerId entryId) with
  | none => .ok none
  | some (.entryLocation location) => .ok (some {
      ledgerId := ledgerId
      entryId := entryId
      fileId := location.fileId
      offset := location.offset
      len := location.len
      checksum := location.checksum
      partition := location.partition })
  | some _ => .error (.invalid "failed to deserialize an entry location")

def readEntryRecord (db : Db) (entryLog : EntryLogStore) (ledgerId entryId : Nat) :
    Except ReadFailure (Option (ManagedLedgerPosition × EntryRecord)) := do
  match ← loadEntryIndex db ledgerId entryId with
  | none => return none
  | some index =>
    let record ← entryLog.read index
    return some ({ ledgerId := ledgerId, entryId := entryId, partition := index.partition }, record)

/-- The message under an id, from a snapshot of the two published values. -/
def messageEntryAt (info : StoredManagedLedgerInfo) (lac : Option ManagedLedgerPosition) (db : Db)
    (entryLog : EntryLogStore) (messageId : MessageId) : Option StoredMessage :=
  match lac with
  | none => none
  | some lac =>
    if lac < messageId.toPosition then none
    else if isVisible messageId.toPosition info lac then
      match readEntryRecord db entryLog messageId.ledger messageId.entry with
      | .ok (some (stored, record)) =>
        if stored.partition ≠ messageId.partition then none
        else some {
          messageId := messageId
          metadata := record.metadata
          payload := record.payload }
      | _ => none
    else none

variable (ledger : RocksDBManagedLedger) (db : Db) (entryLog : EntryLogStore)

def getMessageEntryById (messageId : MessageId) : Option StoredMessage :=
  messageEntryAt ledger.info ledger.lac db entryLog messageId

def pushRecord (out : List StoredMessage) :
    Option (ManagedLedgerPosition × EntryRecord) → List StoredMessage
  | none => out
  | some (stored, record) => out ++ [{
      messageId := stored.toMessageId
      metadata := record.metadata
      payload := record.payload }]

/-- The loop of `read_entries_from`. After the first pass every position is a
stored one beyond the last, so the entries and one more pass bound its length. -/
def readLoop (db : Db) (entryLog : EntryLogStore) (info : StoredManagedLedgerInfo)
    (lac : ManagedLedgerPosition) (limit : Nat) : Nat → Option ManagedLedgerPosition →
    List StoredMessage → Except ReadFailure (List StoredMessage)
  | 0, _, out => .ok out
  | _, none, out => .ok out
  | fuel + 1, some pos, out =>
    if limit ≤ out.length ∨ lac < pos then .ok out
    else if isVisible pos info lac then do
      let fetched ← readEntryRecord db entryLog pos.ledgerId pos.entryId
      readLoop db entryLog info lac limit fuel (info.nextPosition pos) (pushRecord out fetched)
    else readLoop db entryLog info lac limit fuel (info.nextPosition pos) out

def readEntriesFrom
    (start : ManagedLedgerPosition) (limit : Nat) : Except ReadFailure (List StoredMessage) :=
  if limit = 0 then .ok []
  else
    match ledger.lac with
    | none => .ok []
    | some lac =>
      if lac < start then .ok []
      else readLoop db entryLog ledger.info lac limit (ledger.info.totalEntries + 2)
        (some start) []

variable {ledger : RocksDBManagedLedger} {info : StoredManagedLedgerInfo} {db : Db}
  {entryLog : EntryLogStore} {log : CommittedLog}

theorem is_visible_iff (pos lac info) :
    isVisible pos info lac = true ↔ pos ≤ lac ∧ info.Stores pos := by
  unfold isVisible Stores
  split_ifs with beyond
  · simp [beyond]
  · simp only [any_eq_true, decide_eq_true_eq]
    rw [and_iff_right (not_lt.mp beyond)]

theorem load_entry_index_located {index entry}
    (found : db (Keys.managedEntryKey pos.ledgerId pos.entryId) =
      some (.entryLocation (locationOf index)))
    (described : index = indexAt index.fileId index.offset entry)
    (ledgerId : entry.ledgerId = pos.ledgerId) (entryId : entry.entryId = pos.entryId) :
    loadEntryIndex db pos.ledgerId pos.entryId = .ok (some index) := by
  have ids : index.ledgerId = pos.ledgerId ∧ index.entryId = pos.entryId := by
    rw [described]
    exact ⟨ledgerId, entryId⟩
  rw [← ids.1, ← ids.2] at found ⊢
  simp only [loadEntryIndex, found, locationOf]

def recordOf (item : Item) : EntryRecord where
  partition := item.partition
  metadata := item.metadata
  payload := item.payload

def LogInRange (log : CommittedLog) : Prop :=
  ∀ entry ∈ log, InRange (entryAt entry.1 entry.2)

theorem log_in_range_of_words (framed : ∀ entry ∈ log, entry.2.Framed)
    (words : ∀ entry ∈ log, entry.1.toMessageId.IsWord) : LogInRange log := by
  intro entry member
  obtain ⟨low, high, metadata, payload⟩ := framed entry member
  exact {
    ledgerId := (words entry member).1
    entryId := (words entry member).2
    partitionLow := low
    partitionHigh := high
    metadata := metadata
    payload := payload }

variable {entry : ManagedLedgerPosition × Item}

section

variable (accounts : Accounts info log)
include accounts

theorem log_in_range_of_encodable (encodable : info.Encodable)
    (framed : ∀ entry ∈ log, entry.2.Framed) : LogInRange log := by
  apply log_in_range_of_words framed
  intro entry member
  obtain ⟨ledger, inInfo, id, bound⟩ := accounts.stored member
  obtain ⟨idBound, entriesBound, _⟩ := encodable ledger inInfo
  have word := i64_bound_lt
  constructor
  · exact (id.symm.le.trans_lt idBound).trans word
  · exact (bound.trans entriesBound).trans word

section

variable (located : Located (Holds entryLog) db log) (inRange : LogInRange log)
include located inRange

theorem read_entry_record_member (member : entry ∈ log) :
    readEntryRecord db entryLog entry.1.ledgerId entry.1.entryId =
      .ok (some (entry.1, recordOf entry.2)) := by
  obtain ⟨index, found, holds⟩ := located entry member
  have loaded := load_entry_index_located found holds.1 rfl rfl
  have partition : index.partition = entry.1.partition := by
    rw [holds.1, accounts.partitions entry member]
    rfl
  simp only [readEntryRecord, loaded, bind, Except.bind, read_holds (inRange entry member) holds,
    partition]
  rfl

theorem read_entry_record_visible {lac} (visible : isVisible pos info lac = true) :
    ∃ entry ∈ log, entry.1.slot = pos.slot ∧
      readEntryRecord db entryLog pos.ledgerId pos.entryId =
        .ok (some (entry.1, recordOf entry.2)) := by
  have stores := ((is_visible_iff _ _ _).mp visible).2
  obtain ⟨entry, member, slot⟩ := (accounts.stores _).mp stores
  have same := (slot_eq_iff _ _).mp slot
  have read := read_entry_record_member accounts located inRange member
  rw [same.1, same.2] at read
  exact ⟨entry, member, slot, read⟩

end

theorem entry_of_slot {left right : ManagedLedgerPosition × Item} (leftMember : left ∈ log)
    (rightMember : right ∈ log) (same : left.1.slot = right.1.slot) :
    left = right := by
  have distinct : (log.map fun entry => entry.1.slot).Nodup := by
    rw [nodup_iff_pairwise_ne, pairwise_map]
    exact accounts.increasing.imp fun before => before.ne
  exact inj_on_of_nodup_map distinct leftMember rightMember same

end

theorem Settled.le_lac (settled : Settled ledger db log)
    (member : entry ∈ log) : ∃ last, ledger.lac = some last ∧ entry.1 ≤ last := by
  have nonempty : log ≠ [] := ne_nil_of_mem member
  refine ⟨(log.getLast nonempty).1, ?_, ?_⟩
  · rw [settled.lac, getLast?_eq_some_getLast nonempty]
    rfl
  have split := dropLast_append_getLast nonempty
  have increasing := settled.accounts.increasing
  rw [← split] at member increasing
  obtain early | here := mem_append.mp member
  · have before := (pairwise_append.mp increasing).2.2 entry early _ (mem_singleton_self _)
    exact (le_iff _ _).mpr (Or.inl before)
  · rw [mem_singleton.mp here]

def messageOf (entry : ManagedLedgerPosition × Item) : StoredMessage where
  messageId := entry.1.toMessageId
  metadata := entry.2.metadata
  payload := entry.2.payload

def messageIn (log : CommittedLog) (messageId : MessageId) : Option StoredMessage :=
  (log.find? fun entry => decide (entry.1 = messageId.toPosition)).map messageOf

theorem message_in_member (accounts : Accounts info log) (member : entry ∈ log) :
    messageIn log entry.1.toMessageId = some (messageOf entry) := by
  unfold messageIn
  cases search : log.find? fun other => decide (other.1 = entry.1.toMessageId.toPosition) with
  | none =>
    rw [List.find?_eq_none] at search
    exact absurd (decide_eq_true rfl) (search entry member)
  | some other =>
    have holds := List.find?_some search
    have same : other.1 = entry.1 := of_decide_eq_true holds
    have equal := entry_of_slot accounts (mem_of_find?_eq_some search) member (congrArg slot same)
    rw [equal]
    rfl

theorem message_in_missing {messageId : MessageId}
    (missing : ∀ entry ∈ log, entry.1 ≠ messageId.toPosition) :
    messageIn log messageId = none := by
  unfold messageIn
  rw [Option.map_eq_none_iff, List.find?_eq_none]
  intro entry member
  simpa using missing entry member

theorem message_in_eq_some (accounts : Accounts info log) (messageId message) :
    messageIn log messageId = some message ↔
      ∃ entry ∈ log, entry.1.toMessageId = messageId ∧ message = messageOf entry := by
  constructor
  · intro found
    by_cases committed : ∃ entry ∈ log, entry.1 = messageId.toPosition
    · obtain ⟨entry, member, same⟩ := committed
      have ids : entry.1.toMessageId = messageId := to_position_injective same
      rw [← ids, message_in_member accounts member] at found
      exact ⟨entry, member, ids, (Option.some.inj found).symm⟩
    · rw [message_in_missing fun entry member same => committed ⟨entry, member, same⟩] at found
      cases found
  · intro found
    obtain ⟨entry, member, ids, same⟩ := found
    rw [← ids, message_in_member accounts member, same]

theorem get_message_entry_by_id_spec (settled : Settled ledger db log)
    (located : Located (Holds entryLog) db log) (inRange : LogInRange log) (messageId : MessageId) :
    getMessageEntryById ledger db entryLog messageId = messageIn log messageId := by
  have accounts := settled.accounts
  by_cases committed : ∃ entry ∈ log, entry.1 = messageId.toPosition
  · obtain ⟨entry, member, same⟩ := committed
    have ids : messageId = entry.1.toMessageId := to_position_injective same.symm
    subst ids
    obtain ⟨last, lac, atMost⟩ := settled.le_lac member
    have visible : isVisible entry.1 ledger.info last = true := by
      rw [is_visible_iff]
      exact ⟨atMost, accounts.stored member⟩
    have fetched := read_entry_record_member accounts located inRange member
    rw [message_in_member accounts member]
    unfold getMessageEntryById messageEntryAt
    rw [lac]
    simp only [to_position_to_message_id, if_neg (not_lt.mpr atMost), visible, if_true]
    simp only [toMessageId, fetched, ne_eq, not_true_eq_false, if_false]
    rfl
  · have elsewhere entry (member : entry ∈ log) : entry.1 ≠ messageId.toPosition :=
      fun same => committed ⟨entry, member, same⟩
    rw [message_in_missing elsewhere]
    unfold getMessageEntryById messageEntryAt
    cases ledger.lac with
    | none => rfl
    | some lac =>
      simp only
      split_ifs with beyond visible
      · rfl
      · -- The slot is committed, under another partition.
        obtain ⟨entry, member, slot, read⟩ :=
          read_entry_record_visible accounts located inRange visible
        have different : entry.1.partition ≠ messageId.partition := by
          intro same
          exact elsewhere entry member (ext_slot slot same)
        simp only [toPosition] at read
        simp only [read, ne_eq, different, not_false_eq_true, if_true]
      · rfl

theorem read_loop_committed (accounts : Accounts info log)
    (located : Located (Holds entryLog) db log) (inRange : LogInRange log) (lac) (limit fuel : Nat)
    (current out) (committed : ∀ message ∈ out, ∃ entry ∈ log, message = messageOf entry) :
    ∃ result, readLoop db entryLog info lac limit fuel current out = .ok result ∧
      ∀ message ∈ result, ∃ entry ∈ log, message = messageOf entry := by
  induction fuel generalizing current out with
  | zero => exact ⟨out, rfl, committed⟩
  | succ fuel ih =>
    cases current with
    | none => exact ⟨out, rfl, committed⟩
    | some pos =>
      rw [readLoop]
      split_ifs with done visible
      · exact ⟨out, rfl, committed⟩
      · obtain ⟨entry, member, _, read⟩ :=
          read_entry_record_visible accounts located inRange visible
        rw [read]
        apply ih
        intro message found
        obtain old | new := mem_append.mp found
        · exact committed message old
        · exact ⟨entry, member, mem_singleton.mp new⟩
      · exact ih _ out committed

theorem read_entries_from_committed (settled : Settled ledger db log)
    (located : Located (Holds entryLog) db log) (inRange : LogInRange log) (start) (limit : Nat) :
    ∃ result, readEntriesFrom ledger db entryLog start limit = .ok result ∧
      ∀ message ∈ result, ∃ entry ∈ log, message = messageOf entry := by
  unfold readEntriesFrom
  split_ifs with nothing
  · exact ⟨[], rfl, by simp⟩
  cases ledger.lac with
  | none => exact ⟨[], rfl, by simp⟩
  | some lac =>
    simp only
    split_ifs with beyond
    · exact ⟨[], rfl, by simp⟩
    · apply read_loop_committed settled.accounts located inRange
      simp

end RocksDBManagedLedger

end PulsarLite.Storage
