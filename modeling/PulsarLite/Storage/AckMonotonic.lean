import PulsarLite.Library.Runs
import PulsarLite.Storage.TrackedCursor

/-!
# Monotonicity of acknowledgements

Runs of appends, cumulative and individual acknowledgements of stored messages on
one subscription. The mark moves back when a cumulative acknowledgement names a
message below it, and when the advancing loop takes a range that a cumulative
acknowledgement has left behind at or below the mark, which it does not if the
mark catches up with the last message. In runs without these two situations
nothing acknowledged is ever lost.
-/

namespace PulsarLite.Storage.AckMonotonic

open Library RocksDbManagedLedgerStorage ManagedCursorState StoredManagedLedgerInfo

inductive Operation
  | append (faults : AppendFaults) (items : List Item)
  | openCursor (options : CursorInitOptions)
  | ackMessage (messageId : MessageId)
  | ackMessageShared (messageId : MessageId)

variable (topic subscription : Text) (storage : RocksDbManagedLedgerStorage)

def perform : Operation → RocksDbManagedLedgerStorage
  | .append faults items => (appendMessages faults topic items storage).2
  | .openCursor options => (initializeOrOpenCursor topic subscription options storage).2
  | .ackMessage messageId => (ackMessage topic subscription messageId storage).2
  | .ackMessageShared messageId => (ackMessageShared topic subscription messageId storage).2

/-- Acknowledgements name stored messages, and counters stay in range. -/
def Allowed (topic : Text) (storage : RocksDbManagedLedgerStorage) : Operation → Prop
  | .append faults items => Fits topic (appendMessages faults topic items storage).2
  | .openCursor options => ∀ start ∈ options.startMessageId, StoresId topic storage start
  | .ackMessage messageId => StoresId topic storage messageId
  | .ackMessageShared messageId => StoresId topic storage messageId

/-- The message is the last one, and the mark is right before it. -/
def CatchesUp (messageId : MessageId) : Prop :=
  ∀ ledger ∈ storage.ledgers (Keys.managedLedgerName topic),
    ∀ state ∈ (cursorState topic subscription storage).toOption, ∃ mark ∈ state.markDelete,
      ledger.info.nextPosition mark = some (cursorPosition messageId.toPosition) ∧
        ledger.info.nextPosition (cursorPosition messageId.toPosition) = none

/-- A cumulative acknowledgement does not name a message below the mark. An individual
one that is not a duplicate finds no range ending at or below it, or catches up. -/
def Careful : Operation → Prop
  | .append _ _ => True
  | .openCursor _ => True
  | .ackMessage messageId => ∀ state ∈ (cursorState topic subscription storage).toOption,
      ∀ mark ∈ state.markDelete, mark.slot ≤ messageId.toPosition.slot
  | .ackMessageShared messageId =>
    (isAcknowledged topic subscription messageId storage).1 = true ∨
      (∀ state ∈ (cursorState topic subscription storage).toOption, state.StopsAbove) ∨
      CatchesUp topic subscription storage messageId

instance (topic : Text) (storage : RocksDbManagedLedgerStorage) (operation : Operation) :
    Decidable (Allowed topic storage operation) :=
  match operation with
  | .append _ _ => inferInstanceAs (Decidable (Fits _ _))
  | .openCursor options => inferInstanceAs (Decidable (∀ start ∈ options.startMessageId, _))
  | .ackMessage _ => inferInstanceAs (Decidable (StoresId _ _ _))
  | .ackMessageShared _ => inferInstanceAs (Decidable (StoresId _ _ _))

instance (topic subscription : Text) (storage : RocksDbManagedLedgerStorage)
    (operation : Operation) : Decidable (Careful topic subscription storage operation) :=
  match operation with
  | .append _ _ => inferInstanceAs (Decidable True)
  | .openCursor _ => inferInstanceAs (Decidable True)
  | .ackMessage _ => inferInstanceAs (Decidable (∀ state ∈ Except.toOption _,
      ∀ mark ∈ markDelete state, _))
  | .ackMessageShared _ => inferInstanceAs (Decidable (_ ∨ (∀ state ∈ Except.toOption _, _) ∨
      ∀ ledger ∈ storage.ledgers _, ∀ state ∈ Except.toOption _, ∃ mark ∈ markDelete state, _))

/-- What a careful run does to a subscription: the log grows, the mark does not
move back, and no stored message loses its acknowledgement. -/
structure Grows (old new : StoredManagedLedgerInfo) (before after : ManagedCursorState) :
    Prop where
  log : old.Extends new
  marks : before.MarkLe after
  acked : ∀ pos, old.Stores pos → before.Acked pos.slot → after.Acked pos.slot

theorem Grows.refl (info state) : Grows info info state state where
  log := .refl info
  marks := .refl state
  acked _ _ acked := acked

theorem Grows.trans {first second third before middle after}
    (left : Grows first second before middle) (right : Grows second third middle after) :
    Grows first third before after where
  log := left.log.trans right.log
  marks := left.marks.trans right.marks
  acked pos stores acked :=
    right.acked pos (left.log.keeps pos stores) (left.acked pos stores acked)

section

variable {topic subscription : Text} {storage : RocksDbManagedLedgerStorage}
  {ledger : RocksDBManagedLedger} {log : CommittedLog} {state : ManagedCursorState}
  (tracked : Tracked topic subscription storage ledger log state) {messageId : MessageId}
include tracked

theorem open_cursor_grows {options}
    (start : ∀ messageId ∈ options.startMessageId, StoresId topic storage messageId) :
    ∃ next, Tracked topic subscription
        (initializeOrOpenCursor topic subscription options storage).2 ledger log next ∧
      Grows ledger.info ledger.info state next := by
  rw [initialize_or_open_cursor_storage tracked.serving]
  split_ifs with missing
  · -- A missing cursor has acknowledged nothing yet.
    have nothing : state = .default := by
      have found := tracked.found
      rw [cursor_state_missing missing] at found
      exact (Except.ok.inj found).symm
    subst nothing
    refine ⟨_, tracked.write (grounded_initial tracked.serving tracked.encodable ?_), ?_⟩
    · intro messageId chosen
      exact (tracked.serving.stores_id messageId).mp (start messageId chosen)
    exact {
      log := .refl _
      marks := by simp [MarkLe, ManagedCursorState.default]
      acked pos _ acked := by
        simp [Acked, CoversSlot, ManagedCursorState.default, RangeSet.empty] at acked }
  · exact ⟨state, tracked, .refl _ _⟩

omit tracked in
theorem grows_with_mark {info : StoredManagedLedgerInfo} {later : ManagedLedgerPosition}
    (ahead : ∀ mark, state.markDelete = some mark → mark.slot ≤ later.slot) :
    Grows info info state (state.withMark later) where
  log := .refl _
  marks mark found := ⟨_, rfl, ahead mark found⟩
  acked := by
    rintro pos _ (⟨mark, found, below⟩ | covered)
    · exact Or.inl ⟨_, rfl, below.trans (ahead mark found)⟩
    · exact Or.inr covered

section

variable (stores : StoresId topic storage messageId)
include stores

theorem ack_message_grows
    (careful : ∀ mark, state.markDelete = some mark → mark.slot ≤ messageId.toPosition.slot) :
    ∃ next, Tracked topic subscription (ackMessage topic subscription messageId storage).2
        ledger log next ∧ Grows ledger.info ledger.info state next := by
  have held := (tracked.serving.stores_id messageId).mp stores
  exact ⟨_, tracked.ack held, grows_with_mark careful⟩

/-- Right before the last message, the acknowledgement goes onto the mark, and the loop has
nothing to look for. -/
theorem catches_up_grows (catchesUp : CatchesUp topic subscription storage messageId) :
    ∃ next, Tracked topic subscription (ackMessageShared topic subscription messageId storage).2
        ledger log next ∧ Grows ledger.info ledger.info state next := by
  obtain ⟨mark, found, isNext, isLast⟩ := catchesUp ledger tracked.serving.cached state
    (by simp [tracked.found, Except.toOption])
  rcases ack_message_shared_eq tracked.serving tracked.found messageId with ⟨_, same⟩ | written
  · rw [same]
    exact ⟨state, tracked, .refl _ _⟩
  rw [written]
  refine ⟨_, tracked.write (tracked.acked_grounded
    ((tracked.serving.stores_id messageId).mp stores)), ?_⟩
  unfold ackedState RocksDBManagedCursor.ackManagedCursorShared
  split_ifs
  · exact .refl _ _
  have isMark : (cursorWith topic subscription storage state).state.markDelete = some mark := found
  simp only [RocksDBManagedCursor.ackPosition, isMark, if_pos isNext.symm]
  rw [RocksDBManagedCursor.advance_frontier_stop]
  · obtain ⟨_, _, ahead, _⟩ := next_position_some tracked.ordered
      (mark_word tracked.grounded.wellFormed found) isNext
    apply grows_with_mark
    intro old isOld
    cases found.symm.trans isOld
    exact ahead.le
  · rintro _ next ⟨⟩ walked
    cases isLast.symm.trans walked

theorem ack_message_shared_grows
    (careful : state.Acked messageId.toPosition.slot ∨ state.StopsAbove) :
    ∃ next, Tracked topic subscription (ackMessageShared topic subscription messageId storage).2
        ledger log next ∧ Grows ledger.info ledger.info state next := by
  have held := (tracked.serving.stores_id messageId).mp stores
  obtain already | above := careful
  · have acknowledged := (acknowledged_iff tracked.grounded.wellFormed.shaped
      (cursorPosition messageId.toPosition)).mpr already
    have unchanged : (ackMessageShared topic subscription messageId storage).2 = storage := by
      simp only [ackMessageShared, with_cursor_ok tracked.serving.cached tracked.found,
        RocksDBManagedCursor.ackManagedCursorShared, cursorWith, acknowledged, if_true]
    rw [unchanged]
    exact ⟨state, tracked, .refl _ _⟩
  obtain ⟨reached, acked, _⟩ := tracked.ack_shared held above
  refine ⟨_, reached, ?_⟩
  exact {
    log := .refl _
    marks := acked.marks
    acked pos stored old := (acked.acked pos stored).mpr (Or.inl old) }

end

theorem perform_grows {operation : Operation} (allowed : Allowed topic storage operation)
    (careful : Careful topic subscription storage operation) :
    ∃ nextLedger nextLog next, Tracked topic subscription
        (perform topic subscription storage operation) nextLedger nextLog next ∧
      Grows ledger.info nextLedger.info state next := by
  cases operation with
  | append faults items =>
    obtain ⟨nextLedger, next, grown⟩ := tracked.append faults items allowed
    exact ⟨nextLedger, _, state, next, grown, .refl state, fun _ _ acked => acked⟩
  | openCursor options =>
    exact ⟨ledger, log, open_cursor_grows tracked allowed⟩
  | ackMessage messageId =>
    exact ⟨ledger, log, ack_message_grows tracked allowed fun mark found =>
      careful state (by simp [tracked.found, Except.toOption]) mark found⟩
  | ackMessageShared messageId =>
    refine ⟨ledger, log, ?_⟩
    obtain already | above | catchesUp := careful
    · exact ack_message_shared_grows tracked allowed
        (.inl ((tracked.is_acknowledged messageId).mp already))
    · exact ack_message_shared_grows tracked allowed
        (.inr (above state (by simp [tracked.found, Except.toOption])))
    · exact catches_up_grows tracked allowed catchesUp

end

theorem run_grows {topic subscription : Text} {start after : RocksDbManagedLedgerStorage}
    {ledger : RocksDBManagedLedger} {log : CommittedLog} {state : ManagedCursorState}
    (tracked : Tracked topic subscription start ledger log state)
    (run : Run (perform topic subscription) (fun storage operation =>
      Allowed topic storage operation ∧ Careful topic subscription storage operation)
      start after) :
    ∃ nextLedger nextLog next, Tracked topic subscription after nextLedger nextLog next ∧
      Grows ledger.info nextLedger.info state next := by
  induction run with
  | refl => exact ⟨ledger, log, state, tracked, .refl _ _⟩
  | step operation storage before permits ih =>
    obtain ⟨middleLedger, middleLog, middle, reached, grown⟩ := ih
    obtain ⟨nextLedger, nextLog, next, performed, further⟩ :=
      perform_grows reached permits.1 permits.2
    exact ⟨nextLedger, nextLog, next, performed, grown.trans further⟩

/-- From the creation of a topic on, in every run whose acknowledgements are
careful: what is acknowledged stays so, and the mark never moves back. -/
theorem careful_acks_are_monotone (topic subscription : Text)
    (start before after : RocksDbManagedLedgerStorage) (log : CommittedLog)
    (history : TopicHistory topic start log)
    (missing : start.db (cursorKey topic subscription) = none)
    (first : Run (perform topic subscription) (fun storage operation =>
      Allowed topic storage operation ∧ Careful topic subscription storage operation)
      start before)
    (later : Run (perform topic subscription) (fun storage operation =>
      Allowed topic storage operation ∧ Careful topic subscription storage operation)
      before after) :
    (∀ messageId, StoresId topic before messageId →
      (isAcknowledged topic subscription messageId before).1 = true →
        (isAcknowledged topic subscription messageId after).1 = true) ∧
    ∃ old new, cursorState topic subscription before = .ok old ∧
      cursorState topic subscription after = .ok new ∧ old.MarkLe new := by
  obtain ⟨_, serving, encodable⟩ := history.serving
  obtain ⟨_, _, old, reached, _⟩ := run_grows (tracked_start serving encodable missing) first
  obtain ⟨_, _, new, ended, grown⟩ := run_grows reached later
  refine ⟨?_, old, new, reached.found, ended.found, grown.marks⟩
  intro messageId stores acknowledged
  rw [ended.is_acknowledged]
  exact grown.acked _ ((reached.serving.stores_id messageId).mp stores)
    ((reached.is_acknowledged messageId).mp acknowledged)

def samplePerform : RocksDbManagedLedgerStorage → Operation → RocksDbManagedLedgerStorage :=
  perform sampleTopic sampleSubscription

def sampleMark (storage : RocksDbManagedLedgerStorage) : Option ManagedLedgerPosition :=
  (cursorState sampleTopic sampleSubscription storage).toOption.bind markDelete

def secondAcked : RocksDbManagedLedgerStorage :=
  samplePerform (samplePerform sampleStorage (.append .none (List.replicate 5 sampleMessage)))
    (.ackMessageShared (sampleId 1))

/-- A cumulative acknowledgement of the third message then leaves the range of the
second behind, below the mark. -/
def leftBehind : RocksDbManagedLedgerStorage :=
  samplePerform secondAcked (.ackMessage (sampleId 2))

theorem run_second_acked : Run samplePerform (fun storage operation =>
    Allowed sampleTopic storage operation ∧
      Careful sampleTopic sampleSubscription storage operation)
    sampleStorage secondAcked :=
  (Run.refl.step (Operation.append .none (List.replicate 5 sampleMessage)) _ (by decide)).step
    (Operation.ackMessageShared (sampleId 1)) _ (by decide)

theorem careful_acks_are_monotone_second :
    (isAcknowledged sampleTopic sampleSubscription (sampleId 1) secondAcked).1 = true ∧
    (isAcknowledged sampleTopic sampleSubscription (sampleId 1)
      (samplePerform secondAcked (.ackMessageShared (sampleId 0)))).1 = true :=
  ⟨by decide, (careful_acks_are_monotone sampleTopic sampleSubscription sampleStorage secondAcked
    _ [] sample_history rfl run_second_acked
    (Run.refl.step (Operation.ackMessageShared (sampleId 0)) _ (by decide))).1 (sampleId 1)
      (by decide)
      (by decide)⟩

/-- With increasing ids: acknowledging the fourth message moves the mark from the
third back to the second, so that neither the third nor the fourth is acknowledged
any more. A cumulative acknowledgement of the first one moves it back too. -/
theorem acks_move_mark_back :
    Run samplePerform (Allowed sampleTopic) sampleStorage leftBehind ∧
    Allowed sampleTopic leftBehind (.ackMessageShared (sampleId 3)) ∧
    Allowed sampleTopic leftBehind (.ackMessage (sampleId 0)) ∧
    (isAcknowledged sampleTopic sampleSubscription (sampleId 2) leftBehind).1 = true ∧
    sampleMark leftBehind = some { ledgerId := 1, entryId := 0, partition := -1 } ∧
    (isAcknowledged sampleTopic sampleSubscription (sampleId 2)
      (samplePerform leftBehind (.ackMessageShared (sampleId 3)))).1 = false ∧
    sampleMark (samplePerform leftBehind (.ackMessageShared (sampleId 3))) =
      some { ledgerId := 0, entryId := 1, partition := -1 } ∧
    (isAcknowledged sampleTopic sampleSubscription (sampleId 2)
      (samplePerform leftBehind (.ackMessage (sampleId 0)))).1 = false ∧
    sampleMark (samplePerform leftBehind (.ackMessage (sampleId 0))) =
      some { ledgerId := 0, entryId := 0, partition := -1 } := by
  refine ⟨?_, by decide, by decide, by decide, by decide, by decide, by decide, by decide,
    by decide⟩
  exact (run_second_acked.mono fun _ _ permits => permits.1).step (.ackMessage (sampleId 2)) _
    (by decide)

end PulsarLite.Storage.AckMonotonic
