import PulsarLite.Broker.ReadPosition

/-!
# The search for the next message comes to an end

The search passes acknowledged messages and messages that are pending, one at a time.
In as many rounds as there are messages, it finds nothing only if it has passed them all.
-/

namespace PulsarLite.Broker

open Storage List

variable {position next : ManagedLedgerPosition} {isMessagePending : MessageId → Bool}
  {readPosition : Option ManagedLedgerPosition} {message : StoredMessage}
  {reader : SubscriptionReader} {view : SubscriptionView}

def messagesFrom (view : SubscriptionView) (readPosition : Option ManagedLedgerPosition) : Nat :=
  (view.messages.filter fun message =>
    readPosition.all fun position => decide (position.slot ≤ message.messageId.slot)).length

theorem messages_from_le : messagesFrom view readPosition ≤ view.messages.length :=
  length_filter_le _ _

theorem messages_from_lt (member : message ∈ view.messages)
    (reached : ∀ position, readPosition = some position → position.slot ≤ message.messageId.slot)
    (passed : message.messageId.slot < next.slot) :
    messagesFrom view (some next) < messagesFrom view readPosition := by
  have fewer : (view.messages.filter fun other => decide (next.slot ≤ other.messageId.slot)) =
      (view.messages.filter fun other => readPosition.all fun position =>
        decide (position.slot ≤ other.messageId.slot)).filter
          fun other => decide (next.slot ≤ other.messageId.slot) := by
    rw [filter_filter]
    apply filter_congr
    intro other _
    rw [Bool.eq_iff_iff, Bool.and_eq_true, decide_eq_true_eq, Option.all_eq_true]
    refine ⟨fun late => ⟨late, fun position isPosition => ?_⟩, And.left⟩
    exact decide_eq_true (((reached position isPosition).trans passed.le).trans late)
  change (view.messages.filter fun other => decide (next.slot ≤ other.messageId.slot)).length < _
  rw [fewer, messagesFrom, length_filter_lt_length_iff_exists]
  refine ⟨message, mem_filter.mpr ⟨member, ?_⟩, by simpa using passed⟩
  rw [Option.all_eq_true]
  exact fun position isPosition => decide_eq_true (reached position isPosition)

variable (presents : Presents reader view) (regular : -1 ≤ view.partition)
include presents regular

theorem scan_from_exhausts (fuel : Nat) (readable : view.Readable position)
    (enough : messagesFrom view (some position) < fuel)
    (nothing : (scanFrom reader fuel position).1 = .ok none) :
    ∀ message ∈ view.messages,
      message.messageId.slot < (scanFrom reader fuel position).2.slot := by
  induction fuel generalizing position with
  | zero => cases enough
  | succ fuel ih =>
    rcases presents.read position readable with empty | ⟨first, isFirst, read, after, _⟩
    · simp only [scanFrom, empty]
      exact presents.complete regular position readable empty
    obtain ⟨answer, asked, next, later, _⟩ := next_position_spec presents isFirst
    have fewer : messagesFrom view (some (answer.getD (logicalNext first.messageId))) <
        messagesFrom view (some position) := by
      apply messages_from_lt isFirst _ later
      rintro _ ⟨⟩
      exact after
    simp only [scanFrom, read, asked] at nothing ⊢
    split_ifs at nothing ⊢
    · exact ih next (by omega) nothing
    · cases nothing

variable (readable : ∀ position, readPosition = some position → view.Readable position)
include readable

theorem next_unacked_candidate_exhausts (scans : Nat) (enough : view.messages.length < scans)
    (nothing : (nextUnackedCandidate reader scans readPosition).1 = .ok none) :
    ∀ message ∈ view.messages, view.acked message.messageId.slot ∨
      ∃ last, (nextUnackedCandidate reader scans readPosition).2 = some last ∧
        message.messageId.slot < last.slot := by
  intro message member
  cases readPosition with
  | some position =>
    exact .inr ⟨_, rfl, scan_from_exhausts presents regular scans (readable position rfl)
      (messages_from_le.trans_lt enough) nothing message member⟩
  | none =>
    obtain ⟨answer, asked, spec⟩ := presents.firstUnacked
    simp only [nextUnackedCandidate, asked] at nothing ⊢
    cases answer with
    | none => exact .inl (presents.exhausted regular asked message member)
    | some position =>
      exact .inr ⟨_, rfl, scan_from_exhausts presents regular scans (spec position rfl).1
        (messages_from_le.trans_lt enough) nothing message member⟩

theorem next_dispatchable_exhausts (scans fuel : Nat) (scansEnough : view.messages.length < scans)
    (enough : messagesFrom view readPosition < fuel) (nothing : (nextDispatchableMessage reader
      isMessagePending scans fuel readPosition).1 = .ok none) :
    ∀ message ∈ view.messages, view.acked message.messageId.slot ∨
      ∃ last, (nextDispatchableMessage reader isMessagePending scans fuel readPosition).2 =
        some last ∧ message.messageId.slot < last.slot := by
  induction fuel generalizing readPosition with
  | zero => cases enough
  | succ fuel ih =>
    have ends := next_unacked_candidate_exhausts presents regular readable scans scansEnough
    have start : ∀ position, readPosition = some position →
        Reached view (fun _ => True) position :=
      fun position isPosition => ⟨readable position isPosition, fun _ _ _ => .inr trivial⟩
    obtain ⟨_, answer, asked, spec⟩ := next_unacked_candidate_spec presents scans start
    rw [nextDispatchableMessage] at nothing ⊢
    generalize nextUnackedCandidate reader scans readPosition = found at ends asked nothing ⊢
    obtain ⟨result, last⟩ := found
    cases asked
    cases answer with
    | none => exact ends rfl
    | some candidate =>
      obtain ⟨message, hit⟩ := spec candidate rfl
      dsimp only at nothing ⊢
      split_ifs at nothing ⊢
      · have fewer := messages_from_lt hit.member hit.ahead hit.later
        apply ih _ (by omega) nothing
        rintro position ⟨⟩
        exact hit.readable
      · cases nothing

/-- A message that is neither acknowledged nor pending, and not before the read
position, is reason enough for a candidate. -/
theorem next_dispatchable_finds (member : message ∈ view.messages)
    (unacked : ¬ view.acked message.messageId.slot)
    (free : isMessagePending message.messageId = false) {fuel : Nat}
    (enough : view.messages.length < fuel)
    (ahead : ∀ position, readPosition = some position → position.slot ≤ message.messageId.slot) :
    ∃ candidate, (nextDispatchableMessage reader isMessagePending fuel fuel readPosition).1 =
      .ok (some candidate) := by
  let settled : MessageId → Prop := fun messageId => isMessagePending messageId = true ∨
    ∃ position, readPosition = some position ∧ messageId.slot < position.slot
  have start : ∀ position, readPosition = some position → Reached view settled position :=
    fun position isPosition => ⟨readable position isPosition,
      fun _ _ before => .inr (.inr ⟨position, isPosition, before⟩)⟩
  obtain ⟨reached, answer, asked, _⟩ := next_dispatchable_message_spec presents fuel fuel
    (fun _ isPending => .inl isPending) start
  cases answer with
  | some candidate => exact ⟨candidate, asked⟩
  | none =>
    -- nothing found: the message has been passed, for one of the reasons that it does not meet
    exfalso
    rcases next_dispatchable_exhausts presents regular readable fuel fuel enough
      (messages_from_le.trans_lt enough) asked message member with acked | ⟨last, isLast, before⟩
    · exact unacked acked
    rcases (reached last isLast).passed message member before with
      acked | isPending | ⟨position, isPosition, behind⟩
    · exact unacked acked
    · cases free.symm.trans isPending
    · exact absurd (ahead position isPosition) (not_le.mpr behind)

end PulsarLite.Broker
