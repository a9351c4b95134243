import PulsarLite.Storage.Navigation

/-!
# RocksDB managed cursors

A cursor keeps the mark-delete position, below and at which everything is
acknowledged, and the ranges of entries acknowledged individually. Each change is
written to RocksDB at once, and every operation of the store starts by reading
the cursor back from there.
-/

namespace PulsarLite.Storage

open Library ManagedLedgerPosition

def cursorPosition (position : ManagedLedgerPosition) : ManagedLedgerPosition :=
  { position with partition := -1 }

def isManagedPositionAcknowledged (cursor : ManagedCursorState)
    (position : ManagedLedgerPosition) : Bool :=
  (match cursor.markDelete with
    | some markDelete => decide (cursorPosition position ≤ markDelete)
    | none => false) ||
  cursor.individuallyDeletedEntries.contains (cursorPosition position)

structure RocksDBManagedCursor where
  managedledgerName : Text
  name : Text
  db : Db
  state : ManagedCursorState

namespace RocksDBManagedCursor

variable (managedledgerName name : Text) (db : Db)

/-- The state a cursor is opened with, which is the default one if RocksDB has
no value for it. -/
def readState : Except String ManagedCursorState :=
  match db (Keys.managedCursorKey managedledgerName name) with
  | none => .ok .default
  | some (.managedCursorInfo info) => ManagedCursorState.decode info
  | some _ => .error "failed to decode Protobuf message"

def openCursor : Except String RocksDBManagedCursor := do
  let state ← readState managedledgerName name db
  return { managedledgerName := managedledgerName, name := name, db := db, state := state }

variable (cursor : RocksDBManagedCursor)

def key : Text :=
  Keys.managedCursorKey cursor.managedledgerName cursor.name

def persistState : RocksDBManagedCursor :=
  { cursor with db := cursor.db.put cursor.key (.managedCursorInfo cursor.state.encode) }

def markDelete (cursor : RocksDBManagedCursor) (position : ManagedLedgerPosition) :
    RocksDBManagedCursor :=
  persistState { cursor with
    state := { cursor.state with markDelete := some (cursorPosition position) } }

def deleteIndividual (position : ManagedLedgerPosition) : RocksDBManagedCursor :=
  persistState { cursor with
    state := { cursor.state with
      individuallyDeletedEntries :=
        cursor.state.individuallyDeletedEntries.insert (cursorPosition position) } }

def resetCursor (position : Option ManagedLedgerPosition) : RocksDBManagedCursor :=
  persistState { cursor with
    state := {
      markDelete := position.map cursorPosition
      individuallyDeletedEntries := .empty } }

/-- The loop at the end of `ack_managed_cursor_shared`. A pass that continues
takes one range out of the set, so the number of ranges bounds the passes. -/
def advanceFrontier (info : StoredManagedLedgerInfo) :
    Nat → RocksDBManagedCursor → RocksDBManagedCursor
  | 0, cursor => cursor
  | fuel + 1, cursor =>
    match cursor.state.markDelete with
    | none => cursor
    | some mark =>
      match info.nextPosition mark with
      | none => cursor
      | some next =>
        match cursor.state.individuallyDeletedEntries.takeCovering next with
        | none => cursor
        | some (stop, rest) =>
          advanceFrontier info fuel (markDelete
            { cursor with
              state := { cursor.state with individuallyDeletedEntries := rest } } stop)

def ackPosition (info : StoredManagedLedgerInfo) (cursor : RocksDBManagedCursor)
    (position : ManagedLedgerPosition) : RocksDBManagedCursor :=
  match cursor.state.markDelete with
  | none =>
    if some position = info.firstPosition position.partition then markDelete cursor position
    else deleteIndividual cursor position
  | some mark =>
    if some position = info.nextPosition mark then markDelete cursor position
    else if mark < position then deleteIndividual cursor position
    else cursor

def ackManagedCursorShared (position : ManagedLedgerPosition)
    (info : StoredManagedLedgerInfo) : RocksDBManagedCursor :=
  if isManagedPositionAcknowledged cursor.state (cursorPosition position) then cursor
  else
    let acked := ackPosition info cursor (cursorPosition position)
    advanceFrontier info acked.state.individuallyDeletedEntries.ranges.elements.length acked

end RocksDBManagedCursor

section

variable (position : ManagedLedgerPosition)
include position

@[simp] theorem cursor_position_partition : (cursorPosition position).partition = -1 := rfl

@[simp] theorem cursor_position_slot : (cursorPosition position).slot = position.slot := rfl

@[simp] theorem cursor_position_idem :
    cursorPosition (cursorPosition position) = cursorPosition position := rfl

end

theorem cursor_position_eq {position} (free : position.partition = -1) :
    cursorPosition position = position := by
  cases position
  simp only at free
  rw [free]
  rfl

/-- What every state of a cursor keeps, whatever ids it was given. -/
structure ManagedCursorState.Shaped (state : ManagedCursorState) : Prop where
  mark : ∀ pos, state.markDelete = some pos → pos.partition = -1
  normalised : RangeSet.Normalised state.individuallyDeletedEntries.ranges
  starts : ∀ range ∈ state.individuallyDeletedEntries.ranges, range.start.partition = -1
  stops : ∀ range ∈ state.individuallyDeletedEntries.ranges, range.stop.partition = -1
  ledgers : ∀ range ∈ state.individuallyDeletedEntries.ranges,
    range.start.ledgerId = range.stop.ledgerId

variable {state : ManagedCursorState}

theorem ManagedCursorState.WellFormed.shaped (wellFormed : state.WellFormed) : state.Shaped where
  mark pos found := (wellFormed.mark pos found).partition
  normalised := wellFormed.normalised
  starts range member := (wellFormed.starts range member).partition
  stops range member := (wellFormed.stops range member).partition
  ledgers := wellFormed.ledgers

def CoversSlot (ranges : OrderedSet (Range ManagedLedgerPosition)) (slot : Nat ×ₗ Nat) : Prop :=
  ∃ range ∈ ranges, range.start.slot ≤ slot ∧ slot ≤ range.stop.slot

theorem covers_iff_slot (shaped : state.Shaped) {pos} (free : pos.partition = -1) :
    RangeSet.Covers state.individuallyDeletedEntries.ranges pos ↔
      CoversSlot state.individuallyDeletedEntries.ranges pos.slot := by
  constructor
  · rintro ⟨range, member, below, above⟩
    exact ⟨range, member, slot_mono below, slot_mono above⟩
  · rintro ⟨range, member, below, above⟩
    refine ⟨range, member, ?_, ?_⟩
    · exact (le_iff_slot_le ((shaped.starts range member).trans free.symm)).mpr below
    · exact (le_iff_slot_le (free.trans (shaped.stops range member).symm)).mpr above

/-- An entry is acknowledged if it lies at or below the mark or in a range. -/
def ManagedCursorState.Acked (state : ManagedCursorState) (slot : Nat ×ₗ Nat) : Prop :=
  (∃ mark, state.markDelete = some mark ∧ slot ≤ mark.slot) ∨
    CoversSlot state.individuallyDeletedEntries.ranges slot

theorem acknowledged_iff (shaped : state.Shaped) (position) :
    isManagedPositionAcknowledged state position = true ↔ state.Acked position.slot := by
  unfold isManagedPositionAcknowledged ManagedCursorState.Acked
  rw [Bool.or_eq_true, RangeSet.contains_iff shaped.normalised,
    covers_iff_slot shaped (cursor_position_partition position), cursor_position_slot]
  cases found : state.markDelete with
  | none => simp
  | some mark =>
    simp only [decide_eq_true_eq, Option.some.injEq, exists_eq_left']
    rw [le_iff_slot_le ((cursor_position_partition position).trans (shaped.mark mark found).symm)]
    rfl

end PulsarLite.Storage
