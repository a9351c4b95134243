import PulsarLite.Storage.CursorFrontier

/-!
# Cursors that were given any ids

Clients may name any message, stored or not. Whatever they name, a cursor keeps
its shape, each position it keeps is one it was given, and a value that can be
read back at all is read back unchanged.
-/

namespace PulsarLite.Storage

open Library

namespace ManagedCursorState

variable {state : ManagedCursorState}

theorem decoded_mark {read mark} (found : state.markDelete = some mark)
    (decoded : decodeMark state.encode.markDeleteLedgerId state.encode.markDeleteEntryId =
      .ok read) :
    ∃ pos, decodePosition (asI64 mark.ledgerId) (asI64 mark.entryId) = .ok pos := by
  simp only [encode, found, Option.map_some, decodeMark] at decoded
  cases position : decodePosition (asI64 mark.ledgerId) (asI64 mark.entryId) with
  | error error => simp [position] at decoded
  | ok pos => exact ⟨pos, rfl⟩

theorem decoded_range {deleted read range}
    (decoded : decodeRange deleted (positionRange range) = .ok read) :
    (∃ pos, decodePosition (asI64 range.start.ledgerId) (asI64 range.start.entryId) = .ok pos) ∧
      ∃ pos, decodePosition (asI64 range.stop.ledgerId) (asI64 range.stop.entryId) = .ok pos := by
  unfold decodeRange at decoded
  split_ifs at decoded
  obtain ⟨lower, lowerRead, decoded⟩ := bind_eq_ok.mp decoded
  obtain ⟨upper, upperRead, _⟩ := bind_eq_ok.mp decoded
  exact ⟨⟨lower, lowerRead⟩, upper, upperRead⟩

theorem Shaped.decoded {read : ManagedCursorState} (shaped : state.Shaped)
    (words : ∀ pos, state.Mentions pos → pos.ledgerId < u64Modulus ∧ pos.entryId < u64Modulus)
    (decoded : decode state.encode = .ok read) : read = state ∧ state.WellFormed := by
  have persistable pos read : state.Mentions pos →
      decodePosition (asI64 pos.ledgerId) (asI64 pos.entryId) = .ok read → Persistable pos := by
    intro mentioned taken
    exact persistable_of_decode_position (shaped.mentions mentioned) (words pos mentioned).1
      (words pos mentioned).2 taken
  have wellFormed : state.WellFormed := by
    have whole := decoded
    obtain ⟨mark, markRead, whole⟩ := bind_eq_ok.mp whole
    obtain ⟨deleted, folded, _⟩ := bind_eq_ok.mp whole
    have ranges range (member : range ∈ state.individuallyDeletedEntries.ranges) :
        Persistable range.start ∧ Persistable range.stop := by
      obtain ⟨_, _, taken⟩ :=
        foldlM_ok_each folded (List.mem_map_of_mem (f := positionRange) member)
      obtain ⟨⟨start, startRead⟩, stop, stopRead⟩ := decoded_range taken
      exact ⟨persistable _ start (.start member) startRead,
        persistable _ stop (.stop member) stopRead⟩
    exact {
      mark pos found := by
        obtain ⟨read, taken⟩ := decoded_mark found markRead
        exact persistable pos read (Or.inl found) taken
      normalised := shaped.normalised
      starts range member := (ranges range member).1
      stops range member := (ranges range member).2
      ledgers := shaped.ledgers }
  rw [decode_encode wellFormed] at decoded
  exact ⟨(Except.ok.inj decoded).symm, wellFormed⟩

end ManagedCursorState

namespace RocksDBManagedCursor

open ManagedCursorState

variable (info : StoredManagedLedgerInfo)
include info

theorem advance_frontier_mentions (fuel cursor) (shaped : cursor.state.Shaped) :
    (advanceFrontier info fuel cursor).state.Shaped ∧
      ∀ pos, (advanceFrontier info fuel cursor).state.Mentions pos → cursor.state.Mentions pos := by
  induction fuel generalizing cursor with
  | zero => exact ⟨shaped, fun _ mentioned => mentioned⟩
  | succ fuel ih =>
    obtain ⟨mark, next, stop, rest, found, walked, taken⟩ | missed := next_pass info cursor
    · rw [advance_frontier_take fuel found walked taken]
      obtain ⟨taking, mentions⟩ := shaped.take taken
      obtain ⟨advanced, further⟩ := ih (cursor.stored
        { markDelete := some (cursorPosition stop), individuallyDeletedEntries := rest }) taking
      exact ⟨advanced, fun pos mentioned => mentions pos (further pos mentioned)⟩
    · rw [advance_frontier_stop _ missed]
      exact ⟨shaped, fun _ mentioned => mentioned⟩

theorem ack_position_mentions {cursor pos} (shaped : cursor.state.Shaped)
    (free : pos.partition = -1) (fresh : ¬ cursor.state.Acked pos.slot) :
    (ackPosition info cursor pos).state.Shaped ∧
      ∀ other, (ackPosition info cursor pos).state.Mentions other →
        other = pos ∨ cursor.state.Mentions other := by
  have absent : ¬ CoversSlot cursor.state.individuallyDeletedEntries.ranges pos.slot :=
    fun covered => fresh (Or.inr covered)
  have marked : (cursor.markDelete pos).state.Shaped ∧
      ∀ other, (cursor.markDelete pos).state.Mentions other →
        other = pos ∨ cursor.state.Mentions other := by
    rw [mark_delete_eq, cursor_position_eq free]
    exact ⟨shaped.with_mark free, fun _ mentioned => mentions_with_mark mentioned⟩
  have inserted : (cursor.deleteIndividual pos).state.Shaped ∧
      ∀ other, (cursor.deleteIndividual pos).state.Mentions other →
        other = pos ∨ cursor.state.Mentions other := by
    rw [delete_individual_eq, cursor_position_eq free]
    exact ⟨shaped.with_entry free absent,
      fun _ mentioned => mentions_with_entry shaped free absent mentioned⟩
  unfold ackPosition
  split
  · split_ifs
    · exact marked
    · exact inserted
  · split_ifs
    · exact marked
    · exact inserted
    · exact ⟨shaped, fun _ mentioned => Or.inr mentioned⟩

theorem ack_managed_cursor_shared_mentions (cursor pos) (shaped : cursor.state.Shaped) :
    (ackManagedCursorShared cursor pos info).state.Shaped ∧
      ∀ other, (ackManagedCursorShared cursor pos info).state.Mentions other →
        other = cursorPosition pos ∨ cursor.state.Mentions other := by
  unfold ackManagedCursorShared
  split_ifs with already
  · exact ⟨shaped, fun _ mentioned => Or.inr mentioned⟩
  have fresh : ¬ cursor.state.Acked (cursorPosition pos).slot :=
    fun acked => already ((acknowledged_iff shaped (cursorPosition pos)).mpr acked)
  obtain ⟨acked, mentions⟩ := ack_position_mentions info shaped rfl fresh
  obtain ⟨advanced, kept⟩ := advance_frontier_mentions info (ackPosition info cursor
      (cursorPosition pos)).state.individuallyDeletedEntries.ranges.elements.length
    _ acked
  exact ⟨advanced, fun other mentioned => mentions other (kept other mentioned)⟩

end RocksDBManagedCursor

end PulsarLite.Storage
