import Mathlib.Logic.Function.Basic
import PulsarLite.Library.Fallible
import PulsarLite.Storage.Keys
import PulsarLite.Storage.Position

/-!
# Persisted metadata

The protobuf messages in which ledger metadata and cursors are stored, with
their signed 64-bit fields, the in-memory states they encode, and RocksDB as a
map from keys to such values. Protobuf and bincode are taken to be faithful, so
a stored value is kept as the message itself. Timestamps, properties and the
offload fields are never read and are left out.
-/

namespace PulsarLite.Storage

open Library List
open RangeSet (empty)

variable {value read : Nat}

namespace Proto

structure NestedPositionInfo where
  ledgerId : Int
  entryId : Int
deriving DecidableEq

structure MessageRange where
  lowerEndpoint : NestedPositionInfo
  upperEndpoint : NestedPositionInfo
deriving DecidableEq

structure ManagedCursorInfo where
  markDeleteLedgerId : Option Int
  markDeleteEntryId : Option Int
  individualDeletedMessages : List MessageRange
deriving DecidableEq

structure LedgerInfo where
  ledgerId : Int
  entries : Option Int
  size : Option Int
deriving DecidableEq

structure ManagedLedgerInfo where
  ledgerInfo : List LedgerInfo
deriving DecidableEq

end Proto

def i64Bound : Nat := 2 ^ 63

theorem i64_bound_lt : i64Bound < u64Modulus := by decide

def asI64 (value : Nat) : Int := intOfWord 8 (value % u64Modulus)

def tryIntoU64 (value : Int) : Except String Nat :=
  if 0 ≤ value then .ok value.toNat
  else .error "out of range integral type conversion attempted"

theorem as_i64_of_lt (fits : value < i64Bound) : asI64 value = value := by
  unfold i64Bound at fits
  unfold asI64 intOfWord u64Modulus
  rw [Nat.mod_eq_of_lt (by omega), if_pos (by omega)]

theorem as_i64_neg (large : i64Bound ≤ value) (word : value < u64Modulus) : asI64 value < 0 := by
  unfold asI64
  rw [Nat.mod_eq_of_lt word]
  unfold i64Bound at large
  unfold u64Modulus at word
  unfold intOfWord
  omega

theorem try_into_as_i64 (fits : value < i64Bound) : tryIntoU64 (asI64 value) = .ok value := by
  rw [as_i64_of_lt fits, tryIntoU64, if_pos (by omega)]
  rfl

theorem try_into_as_i64_large (large : i64Bound ≤ value) (word : value < u64Modulus) :
    tryIntoU64 (asI64 value) = .error "out of range integral type conversion attempted" := by
  rw [tryIntoU64, if_neg (not_le.mpr (as_i64_neg large word))]

theorem lt_of_try_into_as_i64 (word : value < u64Modulus)
    (converted : tryIntoU64 (asI64 value) = .ok read) : value < i64Bound := by
  by_contra large
  rw [try_into_as_i64_large (not_lt.mp large) word] at converted
  cases converted

structure StoredEntryLocation where
  fileId : Nat
  offset : Nat
  len : Nat
  checksum : Nat
  partition : Int
deriving DecidableEq

structure ManagedCursorState where
  markDelete : Option ManagedLedgerPosition
  individuallyDeletedEntries : RangeSet ManagedLedgerPosition
deriving DecidableEq

namespace ManagedCursorState

variable {pos : ManagedLedgerPosition}

def default : ManagedCursorState where
  markDelete := none
  individuallyDeletedEntries := .empty

def positionRange (range : Range ManagedLedgerPosition) : Proto.MessageRange where
  lowerEndpoint := {
    ledgerId := asI64 range.start.ledgerId
    entryId := asI64 range.start.entryId }
  upperEndpoint := {
    ledgerId := asI64 range.stop.ledgerId
    entryId := asI64 range.stop.entryId }

def encode (state : ManagedCursorState) : Proto.ManagedCursorInfo where
  markDeleteLedgerId := state.markDelete.map fun position => asI64 position.ledgerId
  markDeleteEntryId := state.markDelete.map fun position => asI64 position.entryId
  individualDeletedMessages :=
    state.individuallyDeletedEntries.ranges.elements.map positionRange

def decodePosition (ledgerId entryId : Int) : Except String ManagedLedgerPosition := do
  let ledgerId ← tryIntoU64 ledgerId
  let entryId ← tryIntoU64 entryId
  return { ledgerId := ledgerId, entryId := entryId, partition := -1 }

def decodeRange (deleted : RangeSet ManagedLedgerPosition) (range : Proto.MessageRange) :
    Except String (RangeSet ManagedLedgerPosition) :=
  if range.lowerEndpoint.ledgerId ≠ range.upperEndpoint.ledgerId then
    .error "cursor delete range spans multiple ledgers, which is unsupported"
  else do
    let lower ← decodePosition range.lowerEndpoint.ledgerId range.lowerEndpoint.entryId
    let upper ← decodePosition range.upperEndpoint.ledgerId range.upperEndpoint.entryId
    return deleted.insertRange lower upper

def decodeMark : Option Int → Option Int → Except String (Option ManagedLedgerPosition)
  | some ledgerId, some entryId => some <$> decodePosition ledgerId entryId
  | _, _ => .ok none

def decode (info : Proto.ManagedCursorInfo) : Except String ManagedCursorState := do
  let markDelete ← decodeMark info.markDeleteLedgerId info.markDeleteEntryId
  let deleted ← info.individualDeletedMessages.foldlM decodeRange .empty
  return { markDelete := markDelete, individuallyDeletedEntries := deleted }

/-- A position a cursor can persist and read back: without its partition, and
with both ids small enough for `i64`. -/
structure Persistable (pos : ManagedLedgerPosition) : Prop where
  partition : pos.partition = -1
  ledger : pos.ledgerId < i64Bound
  entry : pos.entryId < i64Bound

structure WellFormed (state : ManagedCursorState) : Prop where
  mark : ∀ pos, state.markDelete = some pos → Persistable pos
  normalised : RangeSet.Normalised state.individuallyDeletedEntries.ranges
  starts : ∀ range ∈ state.individuallyDeletedEntries.ranges, Persistable range.start
  stops : ∀ range ∈ state.individuallyDeletedEntries.ranges, Persistable range.stop
  ledgers : ∀ range ∈ state.individuallyDeletedEntries.ranges,
    range.start.ledgerId = range.stop.ledgerId

theorem well_formed_default : WellFormed default where
  mark := by simp [default]
  normalised := RangeSet.normalised_empty
  starts := by simp [default, empty]
  stops := by simp [default, empty]
  ledgers := by simp [default, empty]

theorem decode_position_as_i64 (persistable : Persistable pos) :
    decodePosition (asI64 pos.ledgerId) (asI64 pos.entryId) = .ok pos := by
  rw [decodePosition, try_into_as_i64 persistable.ledger, try_into_as_i64 persistable.entry]
  rw [← persistable.partition]
  rfl

theorem persistable_of_decode_position {read} (free : pos.partition = -1)
    (ledgerWord : pos.ledgerId < u64Modulus) (entryWord : pos.entryId < u64Modulus)
    (decoded : decodePosition (asI64 pos.ledgerId) (asI64 pos.entryId) = .ok read) :
    Persistable pos := by
  obtain ⟨ledgerId, ledgerRead, decoded⟩ := bind_eq_ok.mp decoded
  obtain ⟨entryId, entryRead, _⟩ := bind_eq_ok.mp decoded
  exact ⟨free, lt_of_try_into_as_i64 ledgerWord ledgerRead,
    lt_of_try_into_as_i64 entryWord entryRead⟩

theorem decode_range_position_range {range} (deleted) (start : Persistable range.start)
    (stop : Persistable range.stop) (same : range.start.ledgerId = range.stop.ledgerId) :
    decodeRange deleted (positionRange range) =
      .ok (deleted.insertRange range.start range.stop) := by
  have oneLedger : ¬ (positionRange range).lowerEndpoint.ledgerId ≠
      (positionRange range).upperEndpoint.ledgerId := by
    simp [positionRange, same]
  rw [decodeRange, if_neg oneLedger]
  simp only [positionRange, decode_position_as_i64 start, decode_position_as_i64 stop]
  rfl

/-- Ranges read back in ascending order never merge. -/
theorem fold_decode_range (ranges : List (Range ManagedLedgerPosition)) (deleted)
    (persistable : ∀ range ∈ ranges, Persistable range.start ∧ Persistable range.stop ∧
      range.start.ledgerId = range.stop.ledgerId ∧ range.start ≤ range.stop)
    (apart : ranges.Pairwise fun left right => left.stop < right.start ∧
      Succ.succ left.stop ≠ some right.start)
    (beyond : ∀ old ∈ deleted.ranges, old.start ≤ old.stop ∧
      ∀ range ∈ ranges, old.stop < range.start ∧ Succ.succ old.stop ≠ some range.start) :
    ∃ result, (ranges.map positionRange).foldlM decodeRange deleted = .ok result ∧
      ∀ range, range ∈ result.ranges ↔ range ∈ deleted.ranges ∨ range ∈ ranges := by
  induction ranges generalizing deleted with
  | nil => exact ⟨deleted, rfl, by simp⟩
  | cons first ranges ih =>
    obtain ⟨start, stop, same, ordered⟩ := persistable first mem_cons_self
    rw [pairwise_cons] at apart
    have stored : deleted.insertRange first.start first.stop =
        { ranges := deleted.ranges.insert first } := by
      apply RangeSet.insert_range_beyond ordered
      intro old member
      have clear := beyond old member
      exact ⟨clear.1, clear.2 first mem_cons_self⟩
    obtain ⟨result, folded, members⟩ := ih { ranges := deleted.ranges.insert first }
      (fun range member => persistable range (mem_cons_of_mem _ member)) apart.2 (by
        intro old member
        obtain rfl | member := (OrderedSet.mem_insert first old deleted.ranges).mp member
        · exact ⟨ordered, apart.1⟩
        · have clear := beyond old member
          exact ⟨clear.1, fun range later => clear.2 range (mem_cons_of_mem _ later)⟩)
    refine ⟨result, ?_, ?_⟩
    · rw [map_cons, foldlM_cons, decode_range_position_range deleted start stop same, stored]
      exact folded
    · intro range
      rw [members, OrderedSet.mem_insert, mem_cons]
      tauto

variable {state : ManagedCursorState}

theorem decode_encode (wellFormed : WellFormed state) : decode state.encode = .ok state := by
  have mark : decodeMark state.encode.markDeleteLedgerId state.encode.markDeleteEntryId =
      .ok state.markDelete := by
    cases found : state.markDelete with
    | none => simp [encode, found, decodeMark]
    | some pos =>
      simp [encode, found, decodeMark, decode_position_as_i64 (wellFormed.mark pos found)]
  have sorted := state.individuallyDeletedEntries.ranges.sorted
  obtain ⟨result, folded, members⟩ := fold_decode_range
    state.individuallyDeletedEntries.ranges.elements empty
    (fun range member => ⟨wellFormed.starts range member, wellFormed.stops range member,
      wellFormed.ledgers range member, wellFormed.normalised.ordered range member⟩)
    (sorted.imp_of_mem fun leftMember rightMember before =>
      wellFormed.normalised.separated _ leftMember _ rightMember before)
    (by simp [empty])
  have same : result = state.individuallyDeletedEntries := by
    have ranges : result.ranges = state.individuallyDeletedEntries.ranges := by
      apply OrderedSet.ext_mem
      intro range
      rw [members]
      simp [empty, OrderedSet.mem_def, OrderedSet.empty]
    exact congrArg RangeSet.mk ranges
  have deleted : state.encode.individualDeletedMessages.foldlM decodeRange empty =
      .ok state.individuallyDeletedEntries := by
    rw [← same]
    exact folded
  rw [decode, mark, deleted]
  rfl

theorem decode_encode_large (mark : state.markDelete = some pos)
    (ledgerWord : pos.ledgerId < u64Modulus) (entryWord : pos.entryId < u64Modulus)
    (large : i64Bound ≤ pos.ledgerId ∨ i64Bound ≤ pos.entryId) :
    decode state.encode = .error "out of range integral type conversion attempted" := by
  have failed : decodePosition (asI64 pos.ledgerId) (asI64 pos.entryId) =
      .error "out of range integral type conversion attempted" := by
    by_cases ledgerFits : pos.ledgerId < i64Bound
    · have entryLarge : i64Bound ≤ pos.entryId := by omega
      rw [decodePosition, try_into_as_i64 ledgerFits, try_into_as_i64_large entryLarge entryWord]
      rfl
    · rw [decodePosition, try_into_as_i64_large (not_lt.mp ledgerFits) ledgerWord]
      rfl
  have markFailed : decodeMark state.encode.markDeleteLedgerId state.encode.markDeleteEntryId =
      .error "out of range integral type conversion attempted" := by
    simp [encode, mark, decodeMark, failed]
  rw [decode, markFailed]
  rfl

end ManagedCursorState

structure StoredLedgerInfo where
  ledgerId : Nat
  entries : Nat
  size : Nat
deriving DecidableEq

structure StoredManagedLedgerInfo where
  ledgers : List StoredLedgerInfo
deriving DecidableEq

def StoredLedgerInfo.new (ledgerId : Nat) : StoredLedgerInfo where
  ledgerId := ledgerId
  entries := 0
  size := 0

namespace StoredManagedLedgerInfo

def new (ledgerId : Nat) : StoredManagedLedgerInfo where
  ledgers := [.new ledgerId]

variable (info : StoredManagedLedgerInfo)

def currentLedger : StoredLedgerInfo :=
  info.ledgers.getLastD (.new 0)

def modifyCurrentLedger
    (change : StoredLedgerInfo → StoredLedgerInfo) : StoredManagedLedgerInfo where
  ledgers := info.ledgers.dropLast ++ [change info.currentLedger]

def ensureInitialized (ledgerId : Nat) : StoredManagedLedgerInfo where
  ledgers := if info.ledgers.isEmpty then [.new ledgerId] else info.ledgers

def currentLedgerIsFull (maxEntriesPerLedger : Nat) : Bool :=
  decide (maxEntriesPerLedger ≤ info.currentLedger.entries)

def rollOverCurrentLedger (nextLedgerId : Nat) : StoredManagedLedgerInfo where
  ledgers := info.ledgers ++ [.new nextLedgerId]

def encode : Proto.ManagedLedgerInfo where
  ledgerInfo := info.ledgers.map fun ledger => {
    ledgerId := asI64 ledger.ledgerId
    entries := some (asI64 ledger.entries)
    size := some (asI64 ledger.size) }

def decodeLedger (ledger : Proto.LedgerInfo) : Except String StoredLedgerInfo := do
  let ledgerId ← tryIntoU64 ledger.ledgerId
  let entries ← tryIntoU64 (ledger.entries.getD 0)
  let size ← tryIntoU64 (ledger.size.getD 0)
  return { ledgerId := ledgerId, entries := entries, size := size }

def decode (info : Proto.ManagedLedgerInfo) : Except String StoredManagedLedgerInfo := do
  let ledgers ← info.ledgerInfo.mapM decodeLedger
  return { ledgers := ledgers }

def Encodable : Prop :=
  ∀ ledger ∈ info.ledgers,
    ledger.ledgerId < i64Bound ∧ ledger.entries < i64Bound ∧ ledger.size < i64Bound

instance (info : StoredManagedLedgerInfo) : Decidable info.Encodable :=
  inferInstanceAs (Decidable (∀ ledger ∈ info.ledgers, _))

theorem decode_encode {info} (encodable : info.Encodable) : decode info.encode = .ok info := by
  have ledgers (ledgers : List StoredLedgerInfo) : (∀ ledger ∈ ledgers,
      ledger.ledgerId < i64Bound ∧ ledger.entries < i64Bound ∧ ledger.size < i64Bound) →
      (StoredManagedLedgerInfo.encode { ledgers := ledgers }).ledgerInfo.mapM decodeLedger =
        .ok ledgers := by
    induction ledgers with
    | nil => exact fun _ => rfl
    | cons ledger rest ih =>
      intro bounded
      obtain ⟨id, entries, size⟩ := bounded ledger mem_cons_self
      have tail := ih fun other member => bounded other (mem_cons_of_mem _ member)
      simp only [encode] at tail
      simp only [encode, map_cons, mapM_cons, decodeLedger, Option.getD_some,
        try_into_as_i64 id, try_into_as_i64 entries, try_into_as_i64 size, tail]
      rfl
  rw [decode, ledgers info.ledgers encodable]
  rfl

end StoredManagedLedgerInfo

inductive DbValue
  | nextLedgerId (value : Nat)
  | managedLedgerInfo (info : Proto.ManagedLedgerInfo)
  | managedCursorInfo (info : Proto.ManagedCursorInfo)
  | entryLocation (location : StoredEntryLocation)
deriving DecidableEq

abbrev Db := Text → Option DbValue

namespace Db

def empty : Db := fun _ => none

variable (db : Db)

def put (key : Text) (value : DbValue) : Db := Function.update db key (some value)

def delete (key : Text) : Db := Function.update db key none

@[simp] theorem put_self (key : Text) (value : DbValue) : db.put key value key = some value := by
  simp [put]

theorem put_of_ne {key other : Text} (different : other ≠ key) (db : Db) (value : DbValue) :
    db.put key value other = db other := by
  simp [put, different]

@[simp] theorem delete_self (key : Text) : db.delete key key = none := by
  simp [delete]

end Db

end PulsarLite.Storage
