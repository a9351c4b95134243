import PulsarLite.Storage.CursorMentions
import PulsarLite.Storage.Serving

/-!
# A cursor that keeps stored positions only

The situation of a subscription whose operations name stored entries: its topic
is served, its value decodes, and every position it keeps is one of the log. The
situation survives appends, restarts, and every write of another such state.
-/

namespace PulsarLite.Storage.RocksDbManagedLedgerStorage

open RocksDBManagedLedger RocksDBManagedCursor ManagedCursorState StoredManagedLedgerInfo

structure Tracked (topic subscription : Text) (storage : RocksDbManagedLedgerStorage)
    (ledger : RocksDBManagedLedger) (log : CommittedLog) (state : ManagedCursorState) : Prop where
  serving : Serving topic storage ledger log
  encodable : ledger.info.Encodable
  found : cursorState topic subscription storage = .ok state
  grounded : Grounded ledger.info state

variable {topic subscription : Text} {storage : RocksDbManagedLedgerStorage}
  {ledger : RocksDBManagedLedger} {log : CommittedLog} {state : ManagedCursorState}

section

variable (tracked : Tracked topic subscription storage ledger log state)
include tracked

theorem Tracked.ordered : ledger.info.Ordered := tracked.serving.settled.accounts.ordered

theorem Tracked.is_acknowledged (messageId : MessageId) :
    (isAcknowledged topic subscription messageId storage).1 = true ↔
      state.Acked messageId.toPosition.slot := by
  rw [is_acknowledged_eq tracked.serving.cached, tracked.found]
  exact acknowledged_iff tracked.grounded.wellFormed.shaped _

end

variable {info : StoredManagedLedgerInfo} {pos : ManagedLedgerPosition}

theorem stores_bounds (encodable : info.Encodable) (stores : info.Stores pos) :
    pos.ledgerId < i64Bound ∧ pos.entryId < i64Bound := by
  obtain ⟨only, member, id, bound⟩ := stores
  obtain ⟨ledgerBound, entryBound, _⟩ := encodable only member
  exact ⟨id ▸ ledgerBound, bound.trans entryBound⟩

theorem persistable_of_stores (encodable : info.Encodable) (stores : info.Stores pos) :
    Persistable (cursorPosition pos) where
  partition := rfl
  ledger := (stores_bounds encodable stores).1
  entry := (stores_bounds encodable stores).2

theorem tracked_start (serving : Serving topic storage ledger log)
    (encodable : ledger.info.Encodable)
    (missing : storage.db (cursorKey topic subscription) = none) :
    Tracked topic subscription storage ledger log .default where
  serving := serving
  encodable := encodable
  found := cursor_state_missing missing
  grounded := grounded_default ledger.info

section

variable (tracked : Tracked topic subscription storage ledger log state) {next : ManagedCursorState}
include tracked

theorem Tracked.write (grounded : Grounded ledger.info next) :
    Tracked topic subscription (writeCursor topic subscription next.encode storage) ledger log
      next where
  serving := tracked.serving.write_cursor subscription _
  encodable := tracked.encodable
  found := (cursor_state_write _ _ _ _).trans (ManagedCursorState.decode_encode grounded.wellFormed)
  grounded := grounded

theorem Tracked.append (faults items)
    (fits : Fits topic (appendMessages faults topic items storage).2) :
    ∃ next, Tracked topic subscription (appendMessages faults topic items storage).2 next
        (log ++ returned (appendMessages faults topic items storage).1 items) state ∧
      ledger.info.Extends next.info := by
  obtain ⟨next, served, grown⟩ := serving_append tracked.serving faults items
  refine ⟨next, ?_, grown⟩
  exact {
    serving := served
    encodable := served.fits.mp fits
    found := ((append_messages_appended tracked.serving faults items).cursors subscription).trans
      tracked.found
    grounded := tracked.grounded.extends grown }

theorem Tracked.restart (config) (fits : Fits topic (restart topic config storage)) :
    ∃ next, Tracked topic subscription (restart topic config storage) next log state ∧
      ledger.info.Extends next.info := by
  obtain ⟨⟨next, served, grown⟩, cursors⟩ :=
    serving_restart tracked.serving tracked.encodable config
  refine ⟨next, ?_, grown⟩
  exact {
    serving := served
    encodable := served.fits.mp fits
    found := (cursors subscription).trans tracked.found
    grounded := tracked.grounded.extends grown }

section

variable {messageId : MessageId} (stores : ledger.info.Stores messageId.toPosition)
include stores

theorem Tracked.grow (shaped : next.Shaped)
    (mentions : ∀ pos, next.Mentions pos →
      pos = cursorPosition messageId.toPosition ∨ state.Mentions pos) : Grounded ledger.info next :=
  tracked.grounded.grow (persistable_of_stores tracked.encodable stores)
    (stores.of_slot (cursor_position_slot _).symm) shaped mentions

theorem Tracked.ack : Tracked topic subscription (ackMessage topic subscription messageId storage).2
    ledger log { state with markDelete := some (cursorPosition messageId.toPosition) } := by
  rw [ack_message_eq tracked.serving tracked.found]
  apply tracked.write
  exact tracked.grow stores (tracked.grounded.wellFormed.shaped.with_mark rfl)
    fun _ mentioned => mentions_with_mark mentioned

theorem Tracked.acked_grounded :
    Grounded ledger.info (ackedState topic subscription storage ledger state messageId) := by
  obtain ⟨shaped, mentions⟩ := ack_managed_cursor_shared_mentions ledger.info
    (cursorWith topic subscription storage state) messageId.toPosition
    tracked.grounded.wellFormed.shaped
  exact tracked.grow stores shaped mentions

end

theorem Tracked.ack_shared {messageId : MessageId}
    (stores : ledger.info.Stores messageId.toPosition)
    (above : state.StopsAbove) :
    Tracked topic subscription (ackMessageShared topic subscription messageId storage).2 ledger log
        (ackedState topic subscription storage ledger state messageId) ∧
      AckedOne ledger.info messageId.toPosition.slot state
        (ackedState topic subscription storage ledger state messageId) ∧
      (Stuck ledger.info state →
        Stuck ledger.info (ackedState topic subscription storage ledger state messageId)) := by
  obtain ⟨ledgerBound, entryBound⟩ := stores_bounds tracked.encodable stores
  obtain ⟨acked, stuck⟩ := ack_managed_cursor_shared_spec tracked.ordered
    (cursorWith topic subscription storage state) tracked.grounded above ledgerBound entryBound
    stores
  refine ⟨?_, acked, stuck⟩
  rcases ack_message_shared_eq tracked.serving tracked.found messageId with
    ⟨same, unchanged⟩ | written
  · rw [same, unchanged]
    exact tracked
  · rw [written]
    exact tracked.write acked.grounded

end

theorem grounded_marked (encodable : info.Encodable) {mark}
    (stores : ∀ pos, mark = some pos → info.Stores pos) :
    Grounded info { markDelete := mark.map cursorPosition
                    individuallyDeletedEntries := .empty } := by
  cases mark with
  | none => exact grounded_default info
  | some pos =>
    have held := stores pos rfl
    apply (grounded_default info).grow (persistable_of_stores encodable held)
      (held.of_slot (cursor_position_slot pos).symm)
    · exact well_formed_default.shaped.with_mark rfl
    · exact fun other mentioned => mentions_with_mark mentioned

theorem marked_acked_iff (mark : Option ManagedLedgerPosition) (slot : Nat ×ₗ Nat) :
    (ManagedCursorState.mk (mark.map cursorPosition) RangeSet.empty).Acked slot ↔
      ∃ pos ∈ mark, slot ≤ pos.slot := by
  cases mark with
  | none | some => simp [Acked, CoversSlot, RangeSet.empty]

theorem sought_acked (ordered : info.Ordered) {messageId : MessageId} (stores : info.Stores pos) :
    (soughtState info messageId).Acked pos.slot ↔ pos.slot < messageId.toPosition.slot := by
  rw [soughtState, marked_acked_iff]
  cases found : info.previousPosition messageId.toPosition with
  | none =>
    have first := (previous_position_none found).2 pos stores
    simpa using first
  | some previous =>
    have splits := (previous_position_some ordered found).2.2 pos stores
    simpa using splits

variable (serving : Serving topic storage ledger log)
include serving

theorem Serving.lac_stores {last} (found : ledger.lac = some last) : ledger.info.Stores last := by
  rw [serving.settled.lac] at found
  obtain ⟨entry, isLast, rfl⟩ := Option.map_eq_some_iff.mp found
  exact serving.settled.accounts.stored (List.mem_of_getLast? isLast)

theorem grounded_initial (encodable : ledger.info.Encodable) {options}
    (start : ∀ messageId, options.startMessageId = some messageId →
      ledger.info.Stores messageId.toPosition) :
    Grounded ledger.info (initialState ledger options) := by
  unfold initialState
  cases chosen : options.startMessageId with
  | some messageId =>
    apply grounded_marked encodable
    intro pos found
    exact previous_position_stores (start messageId chosen) found
  | none =>
    cases options.initialPosition with
    | latest => exact grounded_marked encodable fun pos found => serving.lac_stores found
    | earliest => exact grounded_default ledger.info

end PulsarLite.Storage.RocksDbManagedLedgerStorage
