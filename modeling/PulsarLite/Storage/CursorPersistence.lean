import PulsarLite.Library.Runs
import PulsarLite.Storage.CursorMentions

/-!
# Persistence of cursors

Every operation on a cursor writes its new state to RocksDB. Ids are stored as
`i64` and converted back with a check, so an id of `2 ^ 63` or more, which a client
may send, makes the stored cursor unreadable; any other state is read back as it
was in memory.
-/

namespace PulsarLite.Storage.CursorPersistence

open Library Keys

variable {cursor after : RocksDBManagedCursor}

open RocksDBManagedCursor ManagedCursorState

inductive Operation
  | markDelete (position : ManagedLedgerPosition)
  | deleteIndividual (position : ManagedLedgerPosition)
  | resetCursor (position : Option ManagedLedgerPosition)
  | ackManagedCursorShared (position : ManagedLedgerPosition) (info : StoredManagedLedgerInfo)

def perform (cursor : RocksDBManagedCursor) : Operation → RocksDBManagedCursor
  | .markDelete position => cursor.markDelete position
  | .deleteIndividual position => cursor.deleteIndividual position
  | .resetCursor position => cursor.resetCursor position
  | .ackManagedCursorShared position info => cursor.ackManagedCursorShared position info

def IsWord (position : ManagedLedgerPosition) : Prop :=
  position.ledgerId < u64Modulus ∧ position.entryId < u64Modulus

instance (position : ManagedLedgerPosition) : Decidable (IsWord position) :=
  inferInstanceAs (Decidable (_ ∧ _))

/-- The ids an operation is given are `u64`. -/
def GivesWords (_ : RocksDBManagedCursor) : Operation → Prop
  | .markDelete position => IsWord position
  | .deleteIndividual position => IsWord position
  | .resetCursor position => ∀ pos ∈ position, IsWord pos
  | .ackManagedCursorShared position _ => IsWord position

def Small (state : ManagedCursorState) : Prop :=
  ∀ pos, state.Mentions pos → pos.ledgerId < i64Bound ∧ pos.entryId < i64Bound

/-- What the operations keep, whatever ids they are given. -/
structure Written (cursor : RocksDBManagedCursor) : Prop where
  shaped : cursor.state.Shaped
  words : ∀ pos, cursor.state.Mentions pos → IsWord pos
  stored : cursor.db cursor.key = some (.managedCursorInfo cursor.state.encode) ∨
    cursor.db cursor.key = none ∧ cursor.state = .default

theorem written_new {ledgerName name : Text} {db : Db}
    (missing : db (managedCursorKey ledgerName name) = none)
    (opened : openCursor ledgerName name db = .ok cursor) : Written cursor := by
  have same : cursor = {
      managedledgerName := ledgerName
      name := name
      db := db
      state := .default } := by
    unfold openCursor readState at opened
    rw [missing] at opened
    exact (Except.ok.inj opened).symm
  rw [same]
  exact {
    shaped := well_formed_default.shaped
    words pos mentioned := by
      simp [Mentions, ManagedCursorState.default, RangeSet.empty] at mentioned
    stored := .inr ⟨missing, rfl⟩ }

theorem Written.touched (written : Written cursor) (touched : Touched cursor after)
    (shaped : after.state.Shaped) (words : ∀ pos, after.state.Mentions pos → IsWord pos) :
    Written after where
  shaped := shaped
  words := words
  stored := by
    obtain same | same := touched
    · rw [same]
      exact written.stored
    · left
      rw [same]
      exact Db.put_self _ _ _

theorem with_entry_of_covered {state : ManagedCursorState} (shaped : state.Shaped) {pos}
    (free : pos.partition = -1)
    (covered : CoversSlot state.individuallyDeletedEntries.ranges pos.slot) :
    state.withEntry pos = state := by
  have contains : state.individuallyDeletedEntries.contains pos = true := by
    rw [RangeSet.contains_iff shaped.normalised, covers_iff_slot shaped free]
    exact covered
  unfold withEntry RangeSet.insert
  rw [if_pos contains]

theorem Written.delete_individual (written : Written cursor) {position : ManagedLedgerPosition}
    (word : IsWord position) :
    Written (cursor.deleteIndividual position) := by
  have free := cursor_position_partition position
  rw [delete_individual_eq]
  by_cases covered : CoversSlot cursor.state.individuallyDeletedEntries.ranges
      (cursorPosition position).slot
  · rw [with_entry_of_covered written.shaped free covered]
    exact written.touched (touched_stored _ _) written.shaped written.words
  apply written.touched (touched_stored _ _)
  · exact written.shaped.with_entry free covered
  · intro pos mentioned
    obtain rfl | old := mentions_with_entry written.shaped free covered mentioned
    · exact word
    · exact written.words pos old

theorem Written.perform (written : Written cursor) (operation : Operation)
    (words : GivesWords cursor operation) :
    Written (perform cursor operation) := by
  cases operation with
  | markDelete position =>
    apply written.touched (touched_stored _ _)
    · exact written.shaped.with_mark rfl
    · intro pos mentioned
      obtain rfl | old := mentions_with_mark mentioned
      · exact words
      · exact written.words pos old
  | deleteIndividual position => exact written.delete_individual words
  | resetCursor position =>
    apply written.touched (touched_stored _ _)
    · exact {
        mark pos found := by
          obtain ⟨given, _, rfl⟩ := Option.map_eq_some_iff.mp found
          rfl
        normalised := RangeSet.normalised_empty
        starts := by simp [RangeSet.empty]
        stops := by simp [RangeSet.empty]
        ledgers := by simp [RangeSet.empty] }
    intro pos mentioned
    obtain mark | ⟨range, member, _⟩ := mentioned
    · obtain ⟨given, found, rfl⟩ := Option.map_eq_some_iff.mp mark
      exact words given found
    · simp [RangeSet.empty] at member
  | ackManagedCursorShared position info =>
    obtain ⟨shaped, mentions⟩ :=
      ack_managed_cursor_shared_mentions info cursor position written.shaped
    apply written.touched (ack_managed_cursor_shared_touched cursor position info) shaped
    intro pos mentioned
    obtain rfl | old := mentions pos mentioned
    · exact words
    · exact written.words pos old

theorem open_cursor_iff (cursor) :
    openCursor cursor.managedledgerName cursor.name cursor.db = .ok cursor ↔
      readState cursor.managedledgerName cursor.name cursor.db = .ok cursor.state := by
  unfold openCursor
  cases readState cursor.managedledgerName cursor.name cursor.db with
  | error error => simp [bind, Except.bind]
  | ok state =>
    simp only [bind, Except.bind, pure, Except.pure, Except.ok.injEq]
    constructor
    · intro opened
      rw [← opened]
    · intro same
      rw [same]

theorem Written.opens_iff (written : Written cursor) :
    openCursor cursor.managedledgerName cursor.name cursor.db = .ok cursor ↔
      Small cursor.state := by
  rw [open_cursor_iff]
  obtain present | ⟨missing, new⟩ := written.stored
  · have read : readState cursor.managedledgerName cursor.name cursor.db =
        decode cursor.state.encode := by
      unfold readState
      rw [show cursor.db (managedCursorKey cursor.managedledgerName cursor.name) = _ from present]
    rw [read]
    constructor
    · intro decoded pos mentioned
      have persistable := (written.shaped.decoded written.words decoded).2.mentions mentioned
      exact ⟨persistable.ledger, persistable.entry⟩
    · intro small
      exact decode_encode (written.shaped.well_formed small)
  · have read : readState cursor.managedledgerName cursor.name cursor.db =
        .ok ManagedCursorState.default := by
      unfold readState
      rw [show cursor.db (managedCursorKey cursor.managedledgerName cursor.name) = none
        from missing]
    rw [read, new]
    simp [Small, Mentions, ManagedCursorState.default, RangeSet.empty]

/-- After any operations on a new cursor, with any `u64` ids, opening the persisted
cursor yields exactly the one in memory if and only if its ids are all small. -/
theorem persisted_cursor_opens_iff (ledgerName name : Text) (db : Db)
    (missing : db (managedCursorKey ledgerName name) = none)
    (created cursor : RocksDBManagedCursor) (opened : openCursor ledgerName name db = .ok created)
    (run : Run perform GivesWords created cursor) :
    openCursor cursor.managedledgerName cursor.name cursor.db = .ok cursor ↔
      Small cursor.state := by
  have written := run.invariant (written_new missing opened)
    fun _ operation holds words => holds.perform operation words
  exact written.opens_iff

def sampleCursor : RocksDBManagedCursor where
  managedledgerName := ['t']
  name := ['s']
  db := .empty
  state := .default

def smallPosition (entryId : Nat) : ManagedLedgerPosition where
  ledgerId := 3
  entryId := entryId
  partition := 0

def largestPosition : ManagedLedgerPosition where
  ledgerId := 3
  entryId := 2 ^ 64 - 1
  partition := 0

def acked : RocksDBManagedCursor :=
  [.markDelete (smallPosition 0), .deleteIndividual (smallPosition 2),
    .deleteIndividual (smallPosition 3)].foldl perform sampleCursor

theorem run_acked : Run perform GivesWords sampleCursor acked := by
  have word (entryId : Nat) (small : entryId < 4) : IsWord (smallPosition entryId) := by
    exact ⟨show 3 < u64Modulus by decide, small.trans (by decide)⟩
  apply Run.of_permits
  exact ⟨word 0 (by decide), word 2 (by decide), word 3 (by decide), trivial⟩

theorem small_acked : Small acked.state := by
  have mark : acked.state.markDelete = some { smallPosition 0 with partition := -1 } := by decide
  have ranges : acked.state.individuallyDeletedEntries.ranges.elements =
      [toLex ({ smallPosition 2 with partition := -1 },
        { smallPosition 3 with partition := -1 })] := by
    decide
  intro pos mentioned
  obtain found | ⟨range, member, ends⟩ := mentioned
  · rw [mark] at found
    rw [← Option.some.inj found]
    decide
  rw [OrderedSet.mem_def, ranges, List.mem_singleton] at member
  subst member
  obtain rfl | rfl := ends
  · decide
  · decide

theorem persisted_cursor_opens_iff_acked :
    openCursor acked.managedledgerName acked.name acked.db = .ok acked :=
  (persisted_cursor_opens_iff ['t'] ['s'] .empty rfl sampleCursor acked rfl run_acked).mpr
    small_acked

/-- One acknowledgement of the last entry id makes the cursor unreadable. -/
theorem persisted_cursor_fails_to_open :
    Run perform GivesWords sampleCursor (sampleCursor.markDelete largestPosition) ∧
    openCursor ['t'] ['s'] (sampleCursor.markDelete largestPosition).db =
      .error "out of range integral type conversion attempted" := by
  have word : IsWord largestPosition := by decide
  exact ⟨Run.refl.step (Operation.markDelete largestPosition) sampleCursor word, rfl⟩

end PulsarLite.Storage.CursorPersistence
