import PulsarLite.Storage.TrackedCursor

/-!
# The postcondition of a seek

A seek resets the cursor to the position before its target, writes it, and looks
for the first message to go on from. The position is written with signed fields,
and the search starts from the ledger of the mark. So a target with a large id
leaves a cursor that no one can read, and a target in a ledger that the topic
does not have finds nothing to go on from. The condition under which a seek does
what it promises is stated exactly.
-/

namespace PulsarLite.Storage.Seek

open ManagedLedgerPosition

variable {last : ManagedLedgerPosition × Item}

open RocksDbManagedLedgerStorage ManagedCursorState StoredManagedLedgerInfo

variable (target : MessageId) {lac next previous pos : ManagedLedgerPosition}

def IsEarliest : Prop :=
  target.ledger = u64Modulus - 1 ∧ target.entry = u64Modulus - 1

def IsLatest : Prop :=
  target.ledger = i64Bound - 1 ∧ target.entry = i64Bound - 1

def Below (pos : ManagedLedgerPosition) : Prop :=
  ¬ IsEarliest target ∧ (IsLatest target ∨ pos.slot < target.toPosition.slot)

variable (log : CommittedLog)

/-- The least message of the log that is not below the target, if there is one. -/
def LeastNotBelow (target : MessageId) : Option ManagedLedgerPosition → Prop
  | none => ∀ entry ∈ log, Below target entry.1
  | some first => (∃ entry ∈ log, entry.1.slot = first.slot ∧ ¬ Below target entry.1) ∧
      ∀ entry ∈ log, ¬ Below target entry.1 → first.slot ≤ entry.1.slot

def SeekPost (topic subscription : Text) (target : MessageId)
    (storage : RocksDbManagedLedgerStorage) (log : CommittedLog) : Prop :=
  match seekToMessageId topic subscription target storage with
  | (.ok first, after) =>
    (∀ entry ∈ log, (isAcknowledged topic subscription entry.1.toMessageId after).1 = true ↔
      Below target entry.1) ∧ LeastNotBelow log target first
  | (.error _, after) =>
    cursorState topic subscription after = cursorState topic subscription storage

def Readable : Prop :=
  target.entry = 0 ∨ target.ledger < i64Bound ∧ target.entry ≤ i64Bound

/-- The search for the first message can start: at the beginning of a ledger, or
in a ledger of the topic, or there is nothing to be found. -/
def Searchable (topic : Text) (target : MessageId) (storage : RocksDbManagedLedgerStorage)
    (log : CommittedLog) : Prop :=
  target.entry = 0 ∨
    (∃ ledger ∈ storage.ledgers (Keys.managedLedgerName topic), ledger.info.Knows target.ledger) ∨
    ∀ entry ∈ log, entry.1.slot < target.toPosition.slot

/-- The last message is not hidden by its partition: the search compares it with
a position whose partition is `-1`. -/
def NotHidden : Prop :=
  ∀ last ∈ log.getLast?, -1 ≤ last.1.partition ∨ last.1.slot < target.toPosition.slot ∨
    ∃ other ∈ log.dropLast, target.toPosition.slot ≤ other.1.slot

instance (target : MessageId) (log : CommittedLog) : Decidable (NotHidden target log) :=
  inferInstanceAs (Decidable (∀ last ∈ log.getLast?, _ ∨ _ ∨ ∃ other ∈ log.dropLast, _))

/-- Exactly when a seek does what it promises: the cursor cannot be read anyway,
the topic is empty, or the target passes the three tests. -/
def SeekSound (topic subscription : Text) (target : MessageId)
    (storage : RocksDbManagedLedgerStorage) (log : CommittedLog) : Prop :=
  (∃ error, cursorState topic subscription storage = .error error) ∨ log = [] ∨
    Readable target ∧ Searchable topic target storage log ∧ NotHidden target log

variable {info : StoredManagedLedgerInfo} {target : MessageId}

theorem previous_of_positive (positive : target.entry ≠ 0) :
    info.previousPosition target.toPosition =
      some { target.toPosition with entryId := target.entry - 1 } := by
  have entry : 0 < target.toPosition.entryId := Nat.pos_of_ne_zero positive
  rw [previousPosition, if_pos entry]
  rfl

theorem sought_persistable (encodable : info.Encodable) (readable : Readable target)
    (found : info.previousPosition target.toPosition = some previous) :
    Persistable (cursorPosition previous) := by
  by_cases zero : target.entry = 0
  · have entry : target.toPosition.entryId = 0 := zero
    exact persistable_of_stores encodable (previous_position_zero_stores entry found)
  rw [previous_of_positive zero] at found
  cases found
  obtain isZero | ⟨ledgerBound, entryBound⟩ := readable
  · exact absurd isZero zero
  · exact ⟨rfl, ledgerBound, by simp only [cursorPosition]; omega⟩

theorem sought_well_formed (encodable : info.Encodable) (readable : Readable target) :
    (soughtState info target).WellFormed := by
  unfold soughtState
  cases found : info.previousPosition target.toPosition with
  | none => exact well_formed_default
  | some previous =>
    have persistable := sought_persistable encodable readable found
    apply (well_formed_default.shaped.with_mark persistable.partition).well_formed
    intro pos mentioned
    obtain rfl | old := mentions_with_mark mentioned
    · exact ⟨persistable.ledger, persistable.entry⟩
    · have kept := well_formed_default.mentions old
      exact ⟨kept.ledger, kept.entry⟩

theorem sought_unreadable (word : target.IsWord) (large : ¬ Readable target) :
    decode (soughtState info target).encode =
      .error "out of range integral type conversion attempted" := by
  unfold Readable at large
  push Not at large
  obtain ⟨positive, tooLarge⟩ := large
  have mark : (soughtState info target).markDelete =
      some { ledgerId := target.ledger, entryId := target.entry - 1, partition := -1 } := by
    rw [soughtState, previous_of_positive positive]
    rfl
  apply decode_encode_large mark word.1
  · exact (Nat.sub_le _ _).trans_lt word.2
  · by_cases ledgerFits : target.ledger < i64Bound
    · exact .inr (by simp only; omega)
    · exact .inl (not_lt.mp ledgerFits)

/-- From a readable target in a known ledger the search starts at the least stored
position that is not before the target. -/
theorem sought_candidate (ordered : info.Ordered) (encodable : info.Encodable)
    (readable : Readable target) (known : target.entry = 0 ∨ info.Knows target.ledger) :
    (firstCandidate info (soughtState info target) = none →
      ∀ pos, info.Stores pos → pos.slot < target.toPosition.slot) ∧
    ∀ next, firstCandidate info (soughtState info target) = some next →
      info.Stores next ∧ next.partition = -1 ∧ target.toPosition.slot ≤ next.slot ∧
      ∀ pos, info.Stores pos → target.toPosition.slot ≤ pos.slot → next.slot ≤ pos.slot := by
  cases found : info.previousPosition target.toPosition with
  | none =>
    have first := (previous_position_none found).2
    simp only [soughtState, found, Option.map_none]
    constructor
    · intro missing pos stores
      exact absurd stores (first_position_none missing pos)
    · intro next isFirst
      obtain ⟨stores, partition, least⟩ := first_position_some ordered isFirst
      exact ⟨stores, partition, first next stores, fun pos posStored _ => least pos posStored⟩
  | some previous =>
    have persistable := sought_persistable encodable readable found
    have splits := (previous_position_some ordered found).2.2
    have word : (cursorPosition previous).entryId + 1 < u64Modulus := by
      have small := persistable.entry
      have bound := i64_bound_lt
      omega
    have knownLedger : info.Knows (cursorPosition previous).ledgerId := by
      by_cases zero : target.entry = 0
      · have entry : target.toPosition.entryId = 0 := zero
        exact (previous_position_zero_stores entry found).knows
      · rw [previous_of_positive zero] at found
        cases found
        exact known.resolve_left zero
    simp only [soughtState, found, Option.map_some]
    constructor
    · intro missing pos stores
      exact (splits pos stores).mp (next_position_none ordered word knownLedger missing pos stores)
    intro next walked
    obtain ⟨stores, partition, after, least⟩ := next_position_some ordered word walked
    have notBelow pos : info.Stores pos →
        (target.toPosition.slot ≤ pos.slot ↔ previous.slot < pos.slot) := by
      intro posStored
      rw [← not_lt, ← splits pos posStored, not_le]
    refine ⟨stores, partition, (notBelow next stores).mpr after, ?_⟩
    intro pos posStored beyond
    exact least pos posStored ((notBelow pos posStored).mp beyond)

theorem unknown_candidate (positive : target.entry ≠ 0) (unknown : ¬ info.Knows target.ledger) :
    firstCandidate info (soughtState info target) = none := by
  unfold firstCandidate soughtState
  rw [previous_of_positive positive]
  exact next_position_unknown unknown

theorem first_unacked_of_candidate {state} (shaped : state.Shaped)
    (candidate : firstCandidate info state = some next) (fresh : ¬ state.Acked next.slot) :
    firstUnackedOf info lac state = if lac < next then none else some next := by
  have refused : isManagedPositionAcknowledged state next = false := by
    rw [← Bool.not_eq_true, acknowledged_iff shaped]
    exact fresh
  simp only [firstUnackedOf, candidate, walkUnacked, refused, Bool.false_eq_true, if_false]

theorem first_unacked_of_none {state} (candidate : firstCandidate info state = none) :
    firstUnackedOf info lac state = none := by
  rw [firstUnackedOf, candidate]
  rfl

theorem below_iff (encodable : info.Encodable) (readable : Readable target)
    (stores : info.Stores pos) : Below target pos ↔ pos.slot < target.toPosition.slot := by
  have notEarliest : ¬ IsEarliest target := by
    rintro ⟨_, entry⟩
    unfold Readable at readable
    have large : u64Modulus = 2 * i64Bound := by decide
    have positive : 0 < i64Bound := by decide
    omega
  constructor
  · rintro ⟨_, latest | before⟩
    · obtain ⟨ledger, member, id, bound⟩ := stores
      obtain ⟨ledgerBound, entryBound, _⟩ := encodable ledger member
      obtain ⟨ledgerEq, entryEq⟩ := latest
      rw [slot_lt_iff]
      simp only [MessageId.toPosition]
      omega
    · exact before
  · exact fun before => ⟨notEarliest, .inr before⟩

variable {topic subscription : Text} {storage : RocksDbManagedLedgerStorage}
  {ledger : RocksDBManagedLedger} {log : CommittedLog} {state : ManagedCursorState}

theorem seek_error {error : String} (serving : Serving topic storage ledger log)
    (found : cursorState topic subscription storage = .error error) :
    seekToMessageId topic subscription target storage = (.error error, storage) := by
  simp only [seekToMessageId, seekCursor, with_cursor_error serving.cached found]

theorem seek_ok (serving : Serving topic storage ledger log)
    (found : cursorState topic subscription storage = .ok state) :
    seekToMessageId topic subscription target storage =
      (match ledger.lac with
        | none => .ok none
        | some lac => (decode (soughtState ledger.info target).encode).map
            (firstUnackedOf ledger.info lac),
        writeCursor topic subscription (soughtState ledger.info target).encode storage) := by
  unfold seekToMessageId
  rw [seek_cursor_eq serving found, ← cursor_state_write topic subscription _ storage]
  exact first_unacked_position_eq (serving.write_cursor subscription _) subscription

/-- The first position found is dropped exactly if it is the last one and its
partition hides it. -/
theorem hidden_iff (accounts : Accounts ledger.info log) (isLast : log.getLast? = some last)
    (below : ∀ entry ∈ log, (Below target entry.1 ↔ entry.1.slot < target.toPosition.slot))
    (searchable : Searchable topic target storage log) (stores : ledger.info.Stores next)
    (partition : next.partition = -1) (beyond : target.toPosition.slot ≤ next.slot)
    (least : ∀ pos, ledger.info.Stores pos → target.toPosition.slot ≤ pos.slot →
      next.slot ≤ pos.slot) :
    LeastNotBelow log target (if last.1 < next then none else some next) ↔
      Searchable topic target storage log ∧ NotHidden target log := by
  obtain ⟨entry, member, same⟩ := (accounts.stores next).mp stores
  have notBelow : ¬ Below target entry.1 := by
    rw [below entry member, same, not_lt]
    exact beyond
  obtain ⟨early, split⟩ : ∃ early, log = early ++ [last] :=
    ⟨_, (List.dropLast_append_getLast? last isLast).symm⟩
  have increasing := accounts.increasing
  rw [split, List.pairwise_append] at increasing
  have atMost : next.slot ≤ last.1.slot := by
    rw [← same]
    rw [split] at member
    obtain isEarly | isHere := List.mem_append.mp member
    · exact (increasing.2.2 entry isEarly last (List.mem_singleton_self _)).le
    · rw [List.mem_singleton.mp isHere]
  split_ifs with hides
  · have tie : last.1.slot = next.slot ∧ last.1.partition < next.partition := by
      obtain before | tie := (lt_iff _ _).mp hides
      · exact absurd atMost (not_le.mpr before)
      · exact tie
    constructor
    · intro all
      exact absurd (all entry member) notBelow
    rintro ⟨_, notHidden⟩
    obtain visible | before | ⟨other, isEarly, reaches⟩ := notHidden last isLast
    · rw [partition] at tie
      exact absurd tie.2 (not_lt.mpr visible)
    · rw [tie.1] at before
      exact absurd beyond (not_le.mpr before)
    have otherMember : other ∈ log := List.dropLast_subset log isEarly
    have later := least other.1 (accounts.stored otherMember) reaches
    rw [split, List.dropLast_concat] at isEarly
    have earlier := increasing.2.2 other isEarly last (List.mem_singleton_self _)
    rw [tie.1] at earlier
    exact absurd later (not_le.mpr earlier)
  · constructor
    · intro _
      refine ⟨searchable, ?_⟩
      intro other isOther
      rw [Option.mem_def, isLast] at isOther
      cases isOther
      by_cases visible : -1 ≤ last.1.partition
      · exact .inl visible
      -- The position found comes before the last one, so something else remains.
      right
      right
      have different : next.slot ≠ last.1.slot := by
        intro sameSlot
        apply hides
        rw [lt_iff]
        exact .inr ⟨sameSlot.symm, by rw [partition]; omega⟩
      refine ⟨entry, ?_, by rw [same]; exact beyond⟩
      rw [split] at member ⊢
      rw [List.dropLast_concat]
      obtain isEarly | isHere := List.mem_append.mp member
      · exact isEarly
      · rw [List.mem_singleton.mp isHere] at same
        exact absurd same.symm different
    · intro _
      refine ⟨⟨entry, member, same, notBelow⟩, ?_⟩
      intro other otherMember otherNotBelow
      rw [below other otherMember, not_lt] at otherNotBelow
      exact least other.1 (accounts.stored otherMember) otherNotBelow

section

variable (serving : Serving topic storage ledger log)
include serving

section

variable (encodable : ledger.info.Encodable)
include encodable

theorem least_iff (readable : Readable target) (isLast : log.getLast? = some last) :
    LeastNotBelow log target
        (firstUnackedOf ledger.info last.1 (soughtState ledger.info target)) ↔
      Searchable topic target storage log ∧ NotHidden target log := by
  have accounts := serving.settled.accounts
  have ordered := accounts.ordered
  have shaped := (sought_well_formed encodable readable).shaped
  have below : ∀ entry ∈ log, (Below target entry.1 ↔ entry.1.slot < target.toPosition.slot) :=
    fun entry member => below_iff encodable readable (accounts.stored member)
  have lastMember : last ∈ log := List.mem_of_getLast? isLast
  have allBelow : (∀ entry ∈ log, Below target entry.1) →
      Searchable topic target storage log ∧ NotHidden target log := by
    intro all
    refine ⟨.inr (.inr fun entry member => (below entry member).mp (all entry member)), ?_⟩
    intro other isOther
    have member := List.mem_of_getLast? isOther
    exact .inr (.inl ((below other member).mp (all other member)))
  by_cases known : target.entry = 0 ∨ ledger.info.Knows target.ledger
  · have searchable : Searchable topic target storage log := by
      obtain zero | knows := known
      · exact .inl zero
      · exact .inr (.inl ⟨ledger, serving.cached, knows⟩)
    obtain ⟨nothing, something⟩ := sought_candidate ordered encodable readable known
    cases candidate : firstCandidate ledger.info (soughtState ledger.info target) with
    | none =>
      rw [first_unacked_of_none candidate]
      have all : ∀ entry ∈ log, Below target entry.1 := fun entry member =>
        (below entry member).mpr (nothing candidate entry.1 (accounts.stored member))
      exact ⟨fun _ => allBelow all, fun _ => all⟩
    | some next =>
      obtain ⟨stores, partition, beyond, least⟩ := something next candidate
      have fresh : ¬ (soughtState ledger.info target).Acked next.slot := by
        rw [sought_acked ordered stores, not_lt]
        exact beyond
      rw [first_unacked_of_candidate shaped candidate fresh]
      exact hidden_iff accounts isLast below searchable stores partition beyond least
  · push Not at known
    rw [first_unacked_of_none (unknown_candidate known.1 known.2)]
    constructor
    · exact allBelow
    rintro ⟨zero | ⟨other, cached, knows⟩ | all, _⟩
    · exact absurd zero known.1
    · rw [Option.mem_def, serving.cached] at cached
      cases cached
      exact absurd knows known.2
    · exact fun entry member => (below entry member).mpr (all entry member)

theorem sought_acknowledged (readable : Readable target) {entry : ManagedLedgerPosition × Item}
    (member : entry ∈ log) :
    (isAcknowledged topic subscription entry.1.toMessageId
      (writeCursor topic subscription (soughtState ledger.info target).encode storage)).1 = true ↔
        entry.1.slot < target.toPosition.slot := by
  have wellFormed := sought_well_formed encodable readable
  have served := serving.write_cursor subscription (soughtState ledger.info target).encode
  have stores := serving.settled.accounts.stored member
  rw [is_acknowledged_eq served.cached, cursor_state_write, decode_encode wellFormed,
    ← sought_acked serving.settled.accounts.ordered stores]
  exact acknowledged_iff wellFormed.shaped _

theorem seek_post_readable (found : cursorState topic subscription storage = .ok state)
    (isLast : log.getLast? = some last) (readable : Readable target) :
    SeekPost topic subscription target storage log ↔
      Searchable topic target storage log ∧ NotHidden target log := by
  have wellFormed := sought_well_formed encodable readable
  have lac : ledger.lac = some last.1 := by
    rw [serving.settled.lac, isLast]
    rfl
  have acknowledged : ∀ entry ∈ log, (isAcknowledged topic subscription entry.1.toMessageId
      (writeCursor topic subscription (soughtState ledger.info target).encode storage)).1 = true ↔
        Below target entry.1 := by
    intro entry member
    rw [below_iff encodable readable (serving.settled.accounts.stored member)]
    exact sought_acknowledged serving encodable readable member
  rw [SeekPost, seek_ok serving found, lac]
  simp only [decode_encode wellFormed, Except.map]
  rw [least_iff serving encodable readable isLast, and_iff_right acknowledged]

end

theorem seek_post_unreadable (found : cursorState topic subscription storage = .ok state)
    (isLast : log.getLast? = some last) (word : target.IsWord) (large : ¬ Readable target) :
    ¬ SeekPost topic subscription target storage log := by
  have lac : ledger.lac = some last.1 := by
    rw [serving.settled.lac, isLast]
    rfl
  rw [SeekPost, seek_ok serving found, lac]
  simp only [sought_unreadable word large, Except.map]
  rw [cursor_state_write, sought_unreadable word large, found]
  simp

end

/-- For every state of a topic, every cursor and every target: the postcondition
holds exactly under the stated condition. -/
theorem seek_post_iff (topic subscription : Text) (storage : RocksDbManagedLedgerStorage)
    (log : CommittedLog) (history : TopicHistory topic storage log) (target : MessageId)
    (word : target.IsWord) :
    SeekPost topic subscription target storage log ↔
      SeekSound topic subscription target storage log := by
  obtain ⟨ledger, serving, encodable⟩ := history.serving
  unfold SeekSound
  cases found : cursorState topic subscription storage with
  | error error => simp [SeekPost, seek_error serving found]
  | ok state =>
    cases isLast : log.getLast? with
    | none =>
      have empty : log = [] := List.getLast?_eq_none_iff.mp isLast
      have lac : ledger.lac = none := by
        rw [serving.settled.lac, isLast]
        rfl
      rw [SeekPost, seek_ok serving found, lac]
      simp [empty, LeastNotBelow]
    | some last =>
      have nonempty : log ≠ [] := by
        intro empty
        simp [empty] at isLast
      by_cases readable : Readable target
      · rw [seek_post_readable serving encodable found isLast readable]
        simp [nonempty, readable]
      · simp [nonempty, readable, seek_post_unreadable serving found isLast word readable]

def earliestId : MessageId where
  ledger := u64Modulus - 1
  entry := u64Modulus - 1
  partition := -1

def threeMessages : RocksDbManagedLedgerStorage :=
  (appendMessages .none sampleTopic (List.replicate 3 sampleMessage) sampleStorage).2

def threeLog : CommittedLog :=
  [((sampleId 0).toPosition, sampleMessage), ((sampleId 1).toPosition, sampleMessage),
    ((sampleId 2).toPosition, sampleMessage)]

theorem history_three_messages : TopicHistory sampleTopic threeMessages threeLog :=
  TopicHistory.appended .none (List.replicate 3 sampleMessage) sampleStorage [] sample_history
    (by decide)

/-- Three messages, and a seek to the start of the topic: the seek fails, and the
cursor, which could be read before, cannot be read any more. -/
theorem seek_to_earliest_breaks_cursor :
    (seekToMessageId sampleTopic sampleSubscription earliestId threeMessages).1 =
      .error "out of range integral type conversion attempted" ∧
    cursorState sampleTopic sampleSubscription threeMessages = .ok ManagedCursorState.default ∧
    cursorState sampleTopic sampleSubscription
      (seekToMessageId sampleTopic sampleSubscription earliestId threeMessages).2 =
        .error "out of range integral type conversion attempted" ∧
    ¬ SeekPost sampleTopic sampleSubscription earliestId threeMessages threeLog := by
  refine ⟨by decide, by decide, by decide, ?_⟩
  intro post
  have same : cursorState sampleTopic sampleSubscription
      (seekToMessageId sampleTopic sampleSubscription earliestId threeMessages).2 =
        cursorState sampleTopic sampleSubscription threeMessages := post
  exact absurd same (by decide)

/-- A seek to the third message, which starts the second ledger. -/
theorem seek_post_iff_third :
    SeekPost sampleTopic sampleSubscription (sampleId 2) threeMessages threeLog :=
  (seek_post_iff sampleTopic sampleSubscription threeMessages threeLog history_three_messages
    (sampleId 2) (by decide)).mpr (.inr (.inr ⟨.inl rfl, .inl rfl, by decide⟩))

end PulsarLite.Storage.Seek
