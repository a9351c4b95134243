import PulsarLite.Broker.RedeliveryController
import PulsarLite.Storage.BackendView

/-!
# The read position of a dispatcher

A dispatcher reads the topic one message at a time from its read position on. The
position is moved over acknowledged messages, and over messages that are pending
already; every message that it has passed is acknowledged or otherwise accounted
for.
-/

namespace PulsarLite.Broker

open Library Storage

variable {position : ManagedLedgerPosition} {wider : MessageId → Prop}
  {readPosition firstUnacked : Option ManagedLedgerPosition} {message : StoredMessage}

abbrev DispatchError := RocksDbManagedLedgerStorage.TopicReadError

structure ReadCandidate where
  messageId : MessageId
  metadata : Bytes
  payload : Bytes
  nextPosition : ManagedLedgerPosition

def logicalNext (messageId : MessageId) : ManagedLedgerPosition where
  ledgerId := messageId.ledger
  entryId := (messageId.entry + 1) % u64Modulus
  partition := messageId.partition

/-- The loop of `next_unacked_candidate`, once there is a read position; the
second component is the read position that it leaves. -/
def scanFrom (reader : SubscriptionReader) : Nat → ManagedLedgerPosition →
    Except DispatchError (Option ReadCandidate) × ManagedLedgerPosition
  | 0, position => (.ok none, position)
  | fuel + 1, position =>
    match reader.readEntriesFrom position 1 with
    | .error failure => (.error failure, position)
    | .ok [] => (.ok none, position)
    | .ok (entry :: _) =>
      match reader.getNextPosition entry.messageId.toPosition with
      | .error failure => (.error failure, position)
      | .ok answer =>
        let nextPosition := answer.getD (logicalNext entry.messageId)
        if reader.isAcknowledged entry.messageId then scanFrom reader fuel nextPosition
        else (.ok (some {
          messageId := entry.messageId
          metadata := entry.metadata
          payload := entry.payload
          nextPosition := nextPosition }), position)

def nextUnackedCandidate (reader : SubscriptionReader) (fuel : Nat)
    (readPosition : Option ManagedLedgerPosition) :
    Except DispatchError (Option ReadCandidate) × Option ManagedLedgerPosition :=
  match readPosition with
  | some position =>
    let scanned := scanFrom reader fuel position
    (scanned.1, some scanned.2)
  | none =>
    match reader.firstUnackedPosition with
    | .error failure => (.error failure, none)
    | .ok none => (.ok none, none)
    | .ok (some position) =>
      let scanned := scanFrom reader fuel position
      (scanned.1, some scanned.2)

/-- The loop around it in the dispatchers with many consumers: candidates that
are pending are passed. -/
def nextDispatchableMessage (reader : SubscriptionReader) (isMessagePending : MessageId → Bool)
    (scans : Nat) : Nat → Option ManagedLedgerPosition →
      Except DispatchError (Option ReadCandidate) × Option ManagedLedgerPosition
  | 0, readPosition => (.ok none, readPosition)
  | fuel + 1, readPosition =>
    match nextUnackedCandidate reader scans readPosition with
    | (.ok (some candidate), reached) =>
      if isMessagePending candidate.messageId then
        nextDispatchableMessage reader isMessagePending scans fuel
          (some candidate.nextPosition)
      else (.ok (some candidate), reached)
    | answer => answer

/-- Every message before a slot is acknowledged or meets the condition. -/
def Passed (view : SubscriptionView) (settled : MessageId → Prop) (slot : Nat ×ₗ Nat) : Prop :=
  ∀ message ∈ view.messages, message.messageId.slot < slot →
    view.acked message.messageId.slot ∨ settled message.messageId

/-- What a read position may be at. -/
structure Reached (view : SubscriptionView) (settled : MessageId → Prop)
    (position : ManagedLedgerPosition) : Prop where
  readable : view.Readable position
  passed : Passed view settled position.slot

/-- A candidate is the first message whose turn has not come. -/
structure Candidate (view : SubscriptionView) (settled : MessageId → Prop)
    (candidate : ReadCandidate) (message : StoredMessage) : Prop where
  member : message ∈ view.messages
  messageId : candidate.messageId = message.messageId
  metadata : candidate.metadata = message.metadata
  unacked : ¬ view.acked message.messageId.slot
  passed : Passed view settled message.messageId.slot
  readable : view.Readable candidate.nextPosition
  later : message.messageId.slot < candidate.nextPosition.slot
  next : ∀ other ∈ view.messages, other.messageId.slot < candidate.nextPosition.slot →
    other.messageId.slot ≤ message.messageId.slot

/-- The search for it starts at the read position. -/
structure Found (view : SubscriptionView) (settled : MessageId → Prop)
    (start : Option ManagedLedgerPosition) (candidate : ReadCandidate) (message : StoredMessage) :
    Prop extends Candidate view settled candidate message where
  ahead : ∀ position, start = some position → position.slot ≤ message.messageId.slot

variable {reader : SubscriptionReader} {view : SubscriptionView} {settled : MessageId → Prop}

theorem Passed.mono {slot : Nat ×ₗ Nat} (passed : Passed view settled slot)
    (weaker : ∀ message ∈ view.messages, settled message.messageId →
      view.acked message.messageId.slot ∨ wider message.messageId) :
    Passed view wider slot := by
  intro message member before
  rcases passed message member before with acked | kept
  · exact Or.inl acked
  · exact weaker message member kept

section

variable (reached : Reached view settled position) {after : SubscriptionView}
include reached

theorem Reached.mono
    (weaker : ∀ message ∈ view.messages, settled message.messageId →
      view.acked message.messageId.slot ∨ wider message.messageId) :
    Reached view wider position :=
  ⟨reached.readable, reached.passed.mono weaker⟩

theorem Reached.grows (grows : view.Grows after) : Reached after settled position := by
  obtain ⟨more, messages, above⟩ := grows.messages
  have readable := reached.readable
  constructor
  · obtain ⟨message, member, same⟩ := readable.known
    exact ⟨⟨message, messages ▸ List.mem_append_left _ member, same⟩,
      readable.reached.trans grows.frontier, readable.word, grows.partition ▸ readable.partition⟩
  intro message member before
  rw [messages] at member
  rw [grows.acked]
  rcases List.mem_append.mp member with old | new
  · exact reached.passed message old before
  · exact absurd (before.trans_le readable.reached) (above message new).not_gt

theorem Reached.reacked (reacked : view.Reacked after)
    (acked : ∀ message ∈ view.messages, view.acked message.messageId.slot →
      after.acked message.messageId.slot ∨ wider message.messageId)
    (weaker : ∀ message ∈ view.messages, settled message.messageId →
      after.acked message.messageId.slot ∨ wider message.messageId) :
    Reached after wider position := by
  have readable := reached.readable
  constructor
  · exact ⟨reacked.messages ▸ readable.known, reacked.frontier ▸ readable.reached, readable.word,
      reacked.partition ▸ readable.partition⟩
  intro message member before
  rw [reacked.messages] at member
  rcases reached.passed message member before with isAcked | isSettled
  · exact acked message member isAcked
  · exact weaker message member isSettled

end

theorem first_reached (presents : Presents reader view)
    (first : reader.firstUnackedPosition = .ok firstUnacked) :
    ∀ position, firstUnacked = some position → Reached view settled position := by
  obtain ⟨answer, asked, spec⟩ := presents.firstUnacked
  cases asked.symm.trans first
  intro position isPosition
  obtain ⟨readable, ackedBelow, _⟩ := spec position isPosition
  exact ⟨readable, fun message member before => Or.inl (ackedBelow message member before)⟩

theorem Candidate.reached {candidate : ReadCandidate} (lined : view.Lined)
    (isCandidate : Candidate view settled candidate message)
    (done : view.acked message.messageId.slot ∨ settled message.messageId) :
    Reached view settled candidate.nextPosition := by
  refine ⟨isCandidate.readable, ?_⟩
  intro other member before
  rcases (isCandidate.next other member before).lt_or_eq with earlier | same
  · exact isCandidate.passed other member earlier
  · rw [lined.id_of_slot member isCandidate.member same]
    exact done

variable (presents : Presents reader view)
include presents

theorem next_position_spec (member : message ∈ view.messages) :
    ∃ answer, reader.getNextPosition message.messageId.toPosition = .ok answer ∧
      view.Readable (answer.getD (logicalNext message.messageId)) ∧
      message.messageId.slot < (answer.getD (logicalNext message.messageId)).slot ∧
      ∀ other ∈ view.messages,
        other.messageId.slot < (answer.getD (logicalNext message.messageId)).slot →
          other.messageId.slot ≤ message.messageId.slot := by
  obtain ⟨answer, asked, spec⟩ := presents.next message member
  refine ⟨answer, asked, ?_⟩
  cases answer with
  | some position =>
    obtain ⟨readable, later, next⟩ := spec position rfl
    refine ⟨readable, later, ?_⟩
    intro other otherMember before
    by_contra later
    exact absurd before (next other otherMember (lt_of_not_ge later)).not_gt
  | none =>
    obtain ⟨readable, word⟩ := presents.logicalNext message member
    refine ⟨readable, word, ?_⟩
    intro other otherMember before
    have next : (logicalNext message.messageId) =
        nextPositionSingleLedger message.messageId.toPosition := rfl
    rw [Option.getD_none, next] at before
    simp only [MessageId.slot, nextPositionSingleLedger, ManagedLedgerPosition.slot_lt_iff,
      ManagedLedgerPosition.slot_le_iff] at before word ⊢
    have wrapped := Nat.mod_le (message.messageId.toPosition.entryId + 1) u64Modulus
    omega

theorem scan_from_spec (fuel : Nat) (reached : Reached view settled position) :
    Reached view settled (scanFrom reader fuel position).2 ∧
    ∃ answer, (scanFrom reader fuel position).1 = .ok answer ∧
      ∀ candidate, answer = some candidate →
        ∃ message, Found view settled (some position) candidate message := by
  induction fuel generalizing position with
  | zero => exact ⟨reached, none, rfl, nofun⟩
  | succ fuel ih =>
    rcases presents.read position reached.readable with nothing |
      ⟨message, member, read, after, first⟩
    · simp only [scanFrom, nothing]
      exact ⟨reached, none, rfl, nofun⟩
    obtain ⟨answer, asked, readable, later, next⟩ := next_position_spec presents member
    have passed : Passed view settled message.messageId.slot := by
      intro other otherMember before
      by_cases early : other.messageId.slot < position.slot
      · exact reached.passed other otherMember early
      · exact absurd before (first other otherMember (not_lt.mp early)).not_gt
    simp only [scanFrom, read, asked]
    split_ifs with acked
    · have onwards : Reached view settled (answer.getD (logicalNext message.messageId)) := by
        refine ⟨readable, ?_⟩
        intro other otherMember before
        rcases (next other otherMember before).lt_or_eq with earlier | same
        · exact passed other otherMember earlier
        · rw [same]
          exact Or.inl ((presents.acknowledged _).mp acked)
      obtain ⟨kept, found, asked, spec⟩ := ih onwards
      refine ⟨kept, found, asked, ?_⟩
      intro candidate isFound
      obtain ⟨other, hit⟩ := spec candidate isFound
      refine ⟨other, { hit with ahead := ?_ }⟩
      rintro _ ⟨⟩
      exact (after.trans later.le).trans (hit.ahead _ rfl)
    · refine ⟨reached, _, rfl, ?_⟩
      rintro candidate ⟨⟩
      refine ⟨message, ⟨member, rfl, rfl, ?_, passed, readable, later, next⟩, ?_⟩
      · exact fun isAcked => acked ((presents.acknowledged _).mpr isAcked)
      · rintro _ ⟨⟩
        exact after

theorem next_unacked_candidate_spec (fuel : Nat)
    (reached : ∀ position, readPosition = some position → Reached view settled position) :
    (∀ position, (nextUnackedCandidate reader fuel readPosition).2 = some position →
      Reached view settled position) ∧
    ∃ answer, (nextUnackedCandidate reader fuel readPosition).1 = .ok answer ∧
      ∀ candidate, answer = some candidate →
        ∃ message, Found view settled readPosition candidate message := by
  cases readPosition with
  | some position =>
    obtain ⟨kept, found⟩ := scan_from_spec presents fuel (reached position rfl)
    refine ⟨?_, found⟩
    rintro last ⟨⟩
    exact kept
  | none =>
    obtain ⟨answer, asked, _⟩ := presents.firstUnacked
    cases answer with
    | none =>
      simp only [nextUnackedCandidate, asked]
      exact ⟨nofun, none, rfl, nofun⟩
    | some position =>
      have start : Reached view settled position := first_reached presents asked position rfl
      obtain ⟨kept, answer, found, spec⟩ := scan_from_spec presents fuel start
      simp only [nextUnackedCandidate, asked]
      refine ⟨?_, answer, found, ?_⟩
      · rintro last ⟨⟩
        exact kept
      · intro candidate isCandidate
        obtain ⟨message, hit⟩ := spec candidate isCandidate
        exact ⟨message, { hit with ahead := nofun }⟩

theorem next_dispatchable_message_spec {isMessagePending : MessageId → Bool} (scans fuel : Nat)
    (pending : ∀ messageId, isMessagePending messageId = true → settled messageId)
    (reached : ∀ position, readPosition = some position → Reached view settled position) :
    (∀ position, (nextDispatchableMessage reader isMessagePending scans fuel readPosition).2 =
      some position → Reached view settled position) ∧
    ∃ answer, (nextDispatchableMessage reader isMessagePending scans fuel readPosition).1 =
        .ok answer ∧
      ∀ candidate, answer = some candidate → isMessagePending candidate.messageId = false ∧
        ∃ message, Found view settled readPosition candidate message := by
  induction fuel generalizing readPosition with
  | zero => exact ⟨reached, none, rfl, nofun⟩
  | succ fuel ih =>
    obtain ⟨kept, answer, asked, spec⟩ := next_unacked_candidate_spec presents scans reached
    rw [nextDispatchableMessage]
    generalize nextUnackedCandidate reader scans readPosition = found at kept asked
    obtain ⟨result, last⟩ := found
    cases answer with
    | none =>
      cases asked
      exact ⟨kept, none, rfl, nofun⟩
    | some candidate =>
      cases asked
      obtain ⟨message, hit⟩ := spec candidate rfl
      dsimp only
      split_ifs with isPending
      · have onwards : Reached view settled candidate.nextPosition :=
          hit.reached presents.lined (.inr (hit.messageId ▸ pending _ isPending))
        obtain ⟨kept, answer, asked, found⟩ := @ih (some candidate.nextPosition) (by
          rintro position ⟨⟩
          exact onwards)
        refine ⟨kept, answer, asked, ?_⟩
        intro other isOther
        obtain ⟨free, next, further⟩ := found other isOther
        refine ⟨free, next, { further with ahead := ?_ }⟩
        intro position isPosition
        exact ((hit.ahead position isPosition).trans hit.later.le).trans (further.ahead _ rfl)
      · refine ⟨kept, _, rfl, ?_⟩
        rintro other ⟨⟩
        exact ⟨by simpa using isPending, message, hit⟩

end PulsarLite.Broker
