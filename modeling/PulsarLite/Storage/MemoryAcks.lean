import PulsarLite.Storage.MemoryCursor

/-!
# Acknowledgements in memory

Cumulative acknowledgements write the plain mark and individual ones the cursor with
holes, and neither takes the other map into account. What a sequence of operations
acknowledges is kept exactly if no operation loses what the other map holds.
-/

namespace PulsarLite.Storage.InMemoryManagedLedgerStorage

open Library List Option

variable {topic subscription : Text} {storage : InMemoryManagedLedgerStorage}
  {messageId other : MessageId}

def Operation.Acking : Operation → Prop
  | .seekCursor _ _ => False
  | .deleteCursor => False
  | _ => True

/-- A cumulative acknowledgement does not go below the plain mark and is not sent
when there is a cursor with holes, unless it says nothing new; the first individual
one does not find a plain mark. -/
def Safe (topic subscription : Text) (storage : InMemoryManagedLedgerStorage) : Operation → Prop
  | .ackMessage messageId =>
    if (storage.subscriptionCursors (cursorSubscriptionKey topic subscription)).isSome then
      ∀ other ∈ (storage.messages topic).map Prod.fst, other.entry ≤ messageId.entry →
        storage.isAcknowledged topic subscription other = true
    else ∀ mark ∈ storage.cursors (cursorSubscriptionKey topic subscription),
      mark = u64Max ∨ mark ≤ messageId.entry
  | .ackMessageShared messageId => Remembers topic subscription storage ∨
      storage.cursors (cursorSubscriptionKey topic subscription) = some 0 ∧ messageId.entry = 0
  | _ => True

theorem acks_ack_message (topic subscription : Text) (storage : InMemoryManagedLedgerStorage)
    (messageId : MessageId) (entry : Nat) :
    Acks topic subscription (storage.ackMessage topic subscription messageId) entry ↔
      match storage.subscriptionCursors (cursorSubscriptionKey topic subscription) with
      | some shared => shared.Acked entry
      | none => messageId.entry ≠ u64Max ∧ entry ≤ messageId.entry := by
  unfold Acks ackMessage
  change (match storage.subscriptionCursors _ with | some shared => _ | none => _) ↔ _
  split
  · exact Iff.rfl
  · simp

/-- What is acknowledged stays so. -/
def Keeps (topic subscription : Text) (before after : InMemoryManagedLedgerStorage) : Prop :=
  ∀ other, Stored topic before other → before.isAcknowledged topic subscription other = true →
    after.isAcknowledged topic subscription other = true

section

variable (anchored : Anchored topic subscription storage) (stored : Stored topic storage messageId)
include anchored stored

theorem Anchored.ack_message_safe : Safe topic subscription storage (.ackMessage messageId) ↔
      (∀ other, Stored topic storage other → other.entry ≤ messageId.entry →
        (storage.ackMessage topic subscription messageId).isAcknowledged topic subscription other =
          true) ∧
      Keeps topic subscription storage (storage.ackMessage topic subscription messageId) := by
  have after := (anchored.ack_message stored).is_acknowledged
  have real := anchored.ne_max stored
  unfold Keeps
  simp only [after, acks_ack_message]
  unfold Safe
  cases held : storage.subscriptionCursors (cursorSubscriptionKey topic subscription) with
  | some shared =>
    have before other : storage.isAcknowledged topic subscription other = true ↔
        shared.Acked other.entry := by
      rw [anchored.is_acknowledged, Acks, held]
    simp only [isSome_some, if_true, before]
    constructor
    · intro safe
      exact ⟨safe, fun _ _ acked => acked⟩
    · rintro ⟨covers, _⟩
      exact covers
  | none =>
    constructor
    · intro safe
      refine ⟨fun other _ below => ⟨real, below⟩, ?_⟩
      intro other _ acked
      rw [anchored.is_acknowledged, Acks, held] at acked
      obtain ⟨mark, found, marked, below⟩ := acked
      obtain isMax | atMost := safe mark found
      · exact absurd isMax marked
      · exact ⟨real, below.trans atMost⟩
    rintro ⟨_, keeps⟩ mark found
    obtain isMax | bound := anchored.plain mark found
    · exact Or.inl isMax
    -- the message at the mark was acknowledged, and still is
    obtain ⟨other, isStored, isEntry⟩ := anchored.stored_of_lt bound
    by_cases isMax : mark = u64Max
    · exact Or.inl isMax
    right
    rw [← isEntry]
    refine (keeps other isStored ?_).2
    rw [anchored.is_acknowledged, Acks, held]
    exact ⟨mark, found, isMax, isEntry.le⟩

theorem Anchored.ack_message_shared_safe :
    Safe topic subscription storage (.ackMessageShared messageId) ↔
      Keeps topic subscription storage (storage.ackMessageShared topic subscription messageId) := by
  obtain ⟨next, acks⟩ := anchored.ack_message_shared stored
  unfold Keeps
  simp only [next.is_acknowledged, acks]
  unfold Safe Remembers
  cases held : storage.subscriptionCursors (cursorSubscriptionKey topic subscription) with
  | some shared =>
    simp only [isSome_some, true_or, getD_some, true_iff]
    intro other _ acked
    rw [anchored.is_acknowledged, Acks, held] at acked
    exact Or.inl acked
  | none =>
    have nothing : ∀ entry, ¬ SubscriptionCursor.default.Acked entry := by
      simp [SubscriptionCursor.Acked, SubscriptionCursor.default, RangeSet.Covers, RangeSet.empty]
    simp only [isSome_none, Bool.false_eq_true, false_or, getD_none, nothing]
    constructor
    · rintro (unmarked | ⟨first, isFirst⟩) other _ acked
      · rw [anchored.is_acknowledged, Acks, held] at acked
        obtain ⟨mark, found, marked, _⟩ := acked
        rw [found] at unmarked
        exact absurd unmarked marked
      · rw [anchored.is_acknowledged, Acks, held] at acked
        obtain ⟨mark, found, _, below⟩ := acked
        cases first.symm.trans found
        omega
    intro keeps
    cases found : storage.cursors (cursorSubscriptionKey topic subscription) with
    | none => exact Or.inl rfl
    | some mark =>
      by_cases isMax : mark = u64Max
      · exact Or.inl isMax
      -- everything up to the mark is this one message
      right
      have bound := (anchored.plain mark found).resolve_left isMax
      have only entry : entry ≤ mark → entry = messageId.entry := by
        intro below
        obtain ⟨other, isStored, rfl⟩ := anchored.stored_of_lt (below.trans_lt bound)
        apply keeps other isStored
        rw [anchored.is_acknowledged, Acks, held]
        exact ⟨mark, found, isMax, below⟩
      have first := only 0 (Nat.zero_le _)
      have last := only mark (le_refl _)
      exact ⟨by rw [last, ← first], first.symm⟩

end

theorem open_cursor_factory (options) :
    (storage.initializeOrOpenCursor topic subscription options).2.factory = storage.factory := by
  simp only [initializeOrOpenCursor, createCursor, applyStartMessageIdExclusive,
    applyLatestExclusive, ensureExclusiveCursor, insertCursor]
  repeat' split
  all_goals rfl

theorem stored_perform (stored : Stored topic storage other) (operation : Operation) :
    Stored topic (perform topic subscription storage operation) other := by
  have longer : ∃ more, (perform topic subscription storage operation).messages topic =
      storage.messages topic ++ more := by
    cases operation with
    | createTopic => exact ⟨[], messages_create_topic.trans (append_nil _).symm⟩
    | append partition metadata payload =>
      obtain ⟨messageId, messages⟩ := messages_append storage topic partition metadata payload
      exact ⟨_, messages⟩
    | initializeOrOpenCursor options =>
      exact ⟨[], (messages_congr (by rw [perform, open_cursor_factory])).trans (append_nil _).symm⟩
    | seekCursor messageId shared =>
      refine ⟨[], (messages_congr ?_).trans (append_nil _).symm⟩
      cases shared <;> rfl
    | ackMessage | ackMessageShared | deleteCursor => exact ⟨[], (append_nil _).symm⟩
  obtain ⟨more, messages⟩ := longer
  rw [Stored, messages, map_append]
  exact mem_append_left _ stored

theorem perform_keeps (anchored : Anchored topic subscription storage) {operation : Operation}
    (acking : operation.Acking) (allowed : Allowed topic storage operation)
    (safe : Safe topic subscription storage operation) :
    Keeps topic subscription storage (perform topic subscription storage operation) := by
  cases operation with
  | createTopic | append => exact fun _ _ acked => acked
  | initializeOrOpenCursor options =>
    intro other _ acked
    have known : storage.cursorExists (cursorSubscriptionKey topic subscription) = true := by
      rw [anchored.is_acknowledged, Acks] at acked
      unfold cursorExists
      split at acked
      next shared held => simp [held]
      next =>
        obtain ⟨mark, found, _⟩ := acked
        simp [found]
    rw [perform, initializeOrOpenCursor, if_pos known]
    exact acked
  | ackMessage messageId => exact ((anchored.ack_message_safe allowed).mp safe).2
  | ackMessageShared messageId => exact (anchored.ack_message_shared_safe allowed).mp safe
  | seekCursor | deleteCursor => exact acking.elim

def play (topic subscription : Text) (actions : List Operation) : InMemoryManagedLedgerStorage :=
  actions.foldl (perform topic subscription) new

/-- Right after an acknowledgement its message is acknowledged, after a cumulative one
with all before it, and what is acknowledged at some point still is at any later one. -/
structure Consistent (topic subscription : Text) (actions : List Operation) : Prop where
  individual : ∀ before messageId after,
    actions = before ++ .ackMessageShared messageId :: after →
      (play topic subscription (before ++ [.ackMessageShared messageId])).isAcknowledged topic
        subscription messageId = true
  cumulative : ∀ before messageId after, actions = before ++ .ackMessage messageId :: after →
    ∀ other, Stored topic (play topic subscription before) other →
      other.entry ≤ messageId.entry →
        (play topic subscription (before ++ [.ackMessage messageId])).isAcknowledged topic
          subscription other = true
  stays : ∀ before middle after, actions = before ++ middle ++ after →
    Keeps topic subscription (play topic subscription before)
      (play topic subscription (before ++ middle))

theorem acks_consistent_iff_safe (topic subscription : Text) (actions : List Operation)
    (permits : Run.Permits (perform topic subscription)
      (fun storage operation => operation.Acking ∧ Allowed topic storage operation) new actions) :
    Consistent topic subscription actions ↔
      Run.Permits (perform topic subscription) (Safe topic subscription) new actions := by
  have anchored : ∀ before after, actions = before ++ after →
      Anchored topic subscription (play topic subscription before) := by
    rintro before after rfl
    apply anchored_run
    exact (Run.of_permits (Run.permits_of_append permits)).mono fun _ _ allowed => allowed.2
  have played before operation : play topic subscription (before ++ [operation]) =
      perform topic subscription (play topic subscription before) operation := by
    rw [play, foldl_append]
    rfl
  rw [Run.permits_iff] at permits ⊢
  constructor
  · intro consistent before operation after split
    have here := anchored before (operation :: after) split
    have keeps := consistent.stays before [operation] after (by rw [split]; simp)
    rw [played] at keeps
    have allowed := (permits before operation after split).2
    cases operation with
    | ackMessage messageId =>
      apply (here.ack_message_safe allowed).mpr
      refine ⟨?_, keeps⟩
      intro other stored below
      have covered := consistent.cumulative before messageId after split other stored below
      rwa [played] at covered
    | ackMessageShared messageId => exact (here.ack_message_shared_safe allowed).mpr keeps
    | createTopic | append | initializeOrOpenCursor | seekCursor | deleteCursor => trivial
  intro safe
  constructor
  · intro before messageId after split
    have here := anchored before _ split
    have allowed := (permits before _ after split).2
    obtain ⟨next, acks⟩ := here.ack_message_shared allowed
    rw [played]
    exact (next.is_acknowledged messageId).mpr ((acks _).mpr (Or.inr rfl))
  · intro before messageId after split other stored below
    have here := anchored before _ split
    have allowed := (permits before _ after split).2
    rw [played]
    exact ((here.ack_message_safe allowed).mp (safe before _ after split)).1 other stored below
  intro before middle after split
  induction middle generalizing before with
  | nil =>
    rw [append_nil]
    exact fun _ _ acked => acked
  | cons operation middle ih =>
    have isSplit : actions = before ++ operation :: (middle ++ after) := by
      rw [split, append_assoc, cons_append]
    have later := ih (before ++ [operation]) (by rw [isSplit]; simp)
    rw [append_assoc, singleton_append, played] at later
    obtain ⟨acking, allowed⟩ := permits before operation _ isSplit
    have step := perform_keeps (anchored before _ isSplit) acking allowed
      (safe before operation _ isSplit)
    intro other stored acked
    exact later other (stored_perform stored operation) (step other stored acked)

def sampleAppend : Operation := .append (-1) [] [1]

def sampleId (entry : Nat) : MessageId where
  ledger := 0
  entry := entry
  partition := -1

def sampleActions : List Operation :=
  [sampleAppend, sampleAppend, .initializeOrOpenCursor ⟨.earliest, none⟩,
    .ackMessageShared (sampleId 1), .ackMessageShared (sampleId 0)]

theorem sample_acks_consistent : Consistent ['t'] ['s'] sampleActions := by
  apply (acks_consistent_iff_safe ['t'] ['s'] sampleActions ?_).mpr
  · exact ⟨trivial, trivial, trivial, Or.inl (by decide), Or.inl (by decide), trivial⟩
  · exact ⟨⟨trivial, by decide⟩, ⟨trivial, by decide⟩, ⟨trivial, by decide⟩,
      ⟨trivial, by decide⟩, ⟨trivial, by decide⟩, trivial⟩

def latestForgotten : List Operation :=
  [sampleAppend, .initializeOrOpenCursor ⟨.latest, none⟩, sampleAppend,
    .ackMessageShared (sampleId 1)]

def cumulativeIgnored : List Operation :=
  [sampleAppend, sampleAppend, .initializeOrOpenCursor ⟨.earliest, none⟩,
    .ackMessageShared (sampleId 0), .ackMessage (sampleId 1)]

def cumulativeLowered : List Operation :=
  [sampleAppend, sampleAppend, .initializeOrOpenCursor ⟨.earliest, none⟩,
    .ackMessage (sampleId 1), .ackMessage (sampleId 0)]

/-- Operations on stored messages, after which an acknowledgement does not count. -/
def Loses (actions : List Operation) : Prop :=
  Run.Permits (perform ['t'] ['s'])
      (fun storage operation => operation.Acking ∧ Allowed ['t'] storage operation) new actions ∧
    ¬ Consistent ['t'] ['s'] actions

theorem acks_are_lost :
    Loses latestForgotten ∧ Loses cumulativeIgnored ∧ Loses cumulativeLowered := by
  refine ⟨?_, ?_, ?_⟩
  · refine ⟨⟨⟨trivial, by decide⟩, ⟨trivial, by decide⟩, ⟨trivial, by decide⟩,
      ⟨trivial, by decide⟩, trivial⟩, ?_⟩
    intro consistent
    have lost := consistent.stays [sampleAppend, .initializeOrOpenCursor ⟨.latest, none⟩]
      [sampleAppend, .ackMessageShared (sampleId 1)] [] rfl (sampleId 0) (by decide) (by decide)
    exact absurd lost (by decide)
  · refine ⟨⟨⟨trivial, by decide⟩, ⟨trivial, by decide⟩, ⟨trivial, by decide⟩,
      ⟨trivial, by decide⟩, ⟨trivial, by decide⟩, trivial⟩, ?_⟩
    intro consistent
    have lost := consistent.cumulative (cumulativeIgnored.take 4) (sampleId 1) [] rfl (sampleId 1)
      (by decide) (by decide)
    exact absurd lost (by decide)
  refine ⟨⟨⟨trivial, by decide⟩, ⟨trivial, by decide⟩, ⟨trivial, by decide⟩,
    ⟨trivial, by decide⟩, ⟨trivial, by decide⟩, trivial⟩, ?_⟩
  intro consistent
  have lost := consistent.stays (cumulativeLowered.take 4) [.ackMessage (sampleId 0)] [] rfl
    (sampleId 1) (by decide) (by decide)
  exact absurd lost (by decide)

end PulsarLite.Storage.InMemoryManagedLedgerStorage
