import PulsarLite.Storage.Backend
import PulsarLite.Storage.SnapshotReads
import PulsarLite.Storage.TrackedCursor

/-!
# A subscription on RocksDB, as its dispatcher sees it

While a topic is served, its entries can be read back and its cursor keeps stored
positions only, the answers of the storage are those of a view: the committed log
and the slots the cursor acknowledges. Appends and acknowledgements of stored
messages keep it that way.
-/

namespace PulsarLite.Storage.RocksDbManagedLedgerStorage

open List Option Keys ManagedLedgerPosition ManagedLedgerStore

variable {lac pos : ManagedLedgerPosition}

open StoredManagedLedgerInfo RocksDBManagedLedger RocksDBManagedCursor ManagedCursorState
  EntryLogStore

/-- A served topic whose entries can be read, with the cursor of a subscription. -/
structure Readied (topic subscription : Text) (partition : Int)
    (storage : RocksDbManagedLedgerStorage) (ledger : RocksDBManagedLedger) (log : CommittedLog)
    (state : ManagedCursorState) : Prop where
  tracked : Tracked topic subscription storage ledger log state
  located : Located (Holds storage.entryLog) storage.db log
  framed : ∀ entry ∈ log, entry.2.Framed
  partitions : ∀ entry ∈ log, entry.2.partition = partition
  aligned : Aligned storage.entryLog

def viewOf (partition : Int) (ledger : RocksDBManagedLedger) (log : CommittedLog)
    (state : ManagedCursorState) : SubscriptionView where
  partition := partition
  messages := log.map messageOf
  acked := state.Acked
  frontier := ledger.info.writeSlot

variable {topic subscription : Text} {partition : Int} {storage : RocksDbManagedLedgerStorage}
  {ledger : RocksDBManagedLedger} {log : CommittedLog} {state : ManagedCursorState}

section

variable {info : StoredManagedLedgerInfo}

theorem stores_word (encodable : info.Encodable) (stores : info.Stores pos) :
    pos.entryId + 1 < u64Modulus := by
  have bound := (stores_bounds encodable stores).2
  have limit := i64_bound_lt
  omega

/-- A position of the walk: a stored one, with only acknowledged ones before it. -/
structure Walked (info : StoredManagedLedgerInfo) (state : ManagedCursorState)
    (pos : ManagedLedgerPosition) : Prop where
  stores : info.Stores pos
  free : pos.partition = -1
  passed : ∀ other, info.Stores other → other.slot < pos.slot → state.Acked other.slot

variable (ordered : info.Ordered)
include ordered

section

variable (encodable : info.Encodable)
include encodable

theorem Walked.next {next} (walked : Walked info state pos)
    (acked : state.Acked pos.slot) (found : info.nextPosition pos = some next) :
    Walked info state next := by
  obtain ⟨stores, free, _, least⟩ :=
    next_position_some ordered (stores_word encodable walked.stores) found
  refine ⟨stores, free.trans walked.free, ?_⟩
  intro other otherStores before
  obtain earlier | here | later := lt_trichotomy other.slot pos.slot
  · exact walked.passed other otherStores earlier
  · rw [here]
    exact acked
  · exact absurd (least other otherStores later) (not_le.mpr before)

theorem walk_unacked_some (shaped : state.Shaped) (fuel : Nat) (start)
    (starts : ∀ pos, start = some pos → Walked info state pos) {first}
    (found : walkUnacked info lac state fuel start = some first) :
    Walked info state first ∧ ¬ state.Acked first.slot := by
  induction fuel generalizing start with
  | zero => cases found
  | succ fuel ih =>
    cases start with
    | none => cases found
    | some pos =>
      have walked := starts pos rfl
      rw [walkUnacked] at found
      split_ifs at found with beyond acknowledged
      · apply ih (info.nextPosition pos) _ found
        intro next isNext
        exact walked.next ordered encodable ((acknowledged_iff shaped pos).mp acknowledged) isNext
      · rw [← some.inj found]
        refine ⟨walked, ?_⟩
        rw [← acknowledged_iff shaped]
        exact acknowledged

theorem walk_unacked_none (shaped : state.Shaped) (fuel : Nat) (pos)
    (walked : Walked info state pos) (enough : info.after pos.slot < fuel)
    (found : walkUnacked info lac state fuel (some pos) = none) (other) (stores : info.Stores other)
    (free : other.partition = -1) (within : ¬ lac < other) : state.Acked other.slot := by
  induction fuel generalizing pos with
  | zero => exact absurd enough (Nat.not_lt_zero _)
  | succ fuel ih =>
    by_cases early : other.slot < pos.slot
    · exact walked.passed other stores early
    have reached : ¬ lac < pos := by
      intro beyond
      apply within
      apply beyond.trans_le
      rw [le_iff, walked.free, free]
      obtain before | here := (not_lt.mp early).lt_or_eq
      · exact .inl before
      · exact .inr ⟨here, le_refl _⟩
    rw [walkUnacked, if_neg reached] at found
    split_ifs at found with acknowledged
    have acked := (acknowledged_iff shaped pos).mp acknowledged
    cases isNext : info.nextPosition pos with
    | none =>
      have last := next_position_none ordered (stores_word encodable walked.stores)
        walked.stores.knows isNext other stores
      rw [le_antisymm last (not_lt.mp early)]
      exact acked
    | some next =>
      rw [isNext] at found
      have fewer := (next_position_after ordered encodable walked.stores isNext).2
      exact ih next (walked.next ordered encodable acked isNext) (by omega) found

end

theorem first_candidate_walked (shaped : state.Shaped)
    (word : ∀ mark, state.markDelete = some mark → mark.entryId + 1 < u64Modulus)
    (found : firstCandidate info state = some pos) : Walked info state pos := by
  unfold firstCandidate at found
  cases isMark : state.markDelete with
  | some mark =>
    rw [isMark] at found
    obtain ⟨stores, free, _, least⟩ := next_position_some ordered (word mark isMark) found
    refine ⟨stores, free.trans (shaped.mark mark isMark), ?_⟩
    intro other otherStores before
    refine .inl ⟨mark, isMark, ?_⟩
    by_contra beyond
    exact absurd (least other otherStores (not_le.mp beyond)) (not_le.mpr before)
  | none =>
    rw [isMark] at found
    obtain ⟨stores, free, least⟩ := first_position_some ordered found
    refine ⟨stores, free, ?_⟩
    intro other otherStores before
    exact absurd (least other otherStores) (not_le.mpr before)

theorem first_candidate_none
    (word : ∀ mark, state.markDelete = some mark → mark.entryId + 1 < u64Modulus)
    (known : ∀ mark, state.markDelete = some mark → info.Knows mark.ledgerId)
    (missing : firstCandidate info state = none) (other) (stores : info.Stores other) :
    state.Acked other.slot := by
  unfold firstCandidate at missing
  cases isMark : state.markDelete with
  | some mark =>
    rw [isMark] at missing
    exact .inl ⟨mark, isMark, next_position_none ordered (word mark isMark)
      (known mark isMark) missing other stores⟩
  | none =>
    rw [isMark] at missing
    exact absurd stores (first_position_none missing other)

end

namespace Readied

variable (readied : Readied topic subscription partition storage ledger log state)
include readied

theorem accounts : Accounts ledger.info log := readied.tracked.serving.settled.accounts

theorem lined : (viewOf partition ledger log state).Lined where
  increasing := by
    rw [viewOf, pairwise_map]
    exact readied.accounts.increasing
  below message member := by
    obtain ⟨entry, inLog, rfl⟩ := mem_map.mp member
    exact readied.accounts.below inLog
  partitions message member := by
    obtain ⟨entry, inLog, rfl⟩ := mem_map.mp member
    exact (readied.accounts.partitions entry inLog).trans (readied.partitions entry inLog)

theorem in_range : LogInRange log :=
  log_in_range_of_encodable readied.accounts readied.tracked.encodable readied.framed

theorem message_of_stores (stores : ledger.info.Stores pos) :
    ∃ message ∈ (viewOf partition ledger log state).messages,
      message.messageId.slot = pos.slot := by
  obtain ⟨entry, member, slot⟩ := (readied.accounts.stores pos).mp stores
  exact ⟨messageOf entry, mem_map.mpr ⟨entry, member, rfl⟩, slot⟩

theorem stores_of_message {message}
    (member : message ∈ (viewOf partition ledger log state).messages) :
    ledger.info.Stores message.messageId.toPosition := by
  obtain ⟨entry, inLog, rfl⟩ := mem_map.mp member
  exact readied.accounts.stored inLog

theorem readable_of_stores (stores : ledger.info.Stores pos)
    (inView : pos.partition = partition ∨ pos.partition = -1) :
    (viewOf partition ledger log state).Readable pos where
  known := by
    obtain ⟨message, member, slot⟩ := readied.message_of_stores stores
    exact ⟨message, member, ((slot_eq_iff _ _).mp slot).1⟩
  reached := (readied.accounts.ordered.slot_lt_write_slot stores).le
  word := stores_word readied.tracked.encodable stores
  partition := inView

theorem mark_word (mark) (isMark : state.markDelete = some mark) : mark.entryId + 1 < u64Modulus :=
  stores_word readied.tracked.encodable (readied.tracked.grounded.stored mark (.inl isMark))

theorem first_unacked : firstUnackedPosition topic subscription storage =
      (.ok (match ledger.lac with
        | none => none
        | some lac => firstUnackedOf ledger.info lac state), storage) := by
  rw [first_unacked_position_eq readied.tracked.serving, readied.tracked.found]
  cases ledger.lac with
  | none | some => rfl

theorem first_unacked_some
    (found : (firstUnackedPosition topic subscription storage).1 = .ok (some pos)) :
    Walked ledger.info state pos ∧ ¬ state.Acked pos.slot := by
  rw [readied.first_unacked] at found
  cases isLac : ledger.lac with
  | none => simp [isLac] at found
  | some lac =>
    simp only [isLac, Except.ok.injEq] at found
    apply walk_unacked_some readied.accounts.ordered readied.tracked.encodable
      readied.tracked.grounded.wellFormed.shaped _ _ _ found
    intro start isStart
    exact first_candidate_walked readied.accounts.ordered
      readied.tracked.grounded.wellFormed.shaped readied.mark_word isStart

theorem lac_none (missing : ledger.lac = none) : log = [] := by
  have last := readied.tracked.serving.settled.lac
  rw [missing] at last
  exact getLast?_eq_none_iff.mp (map_eq_none_iff.mp last.symm)

theorem lac_partition (found : ledger.lac = some lac) : lac.partition = partition := by
  have last := readied.tracked.serving.settled.lac
  rw [found] at last
  obtain ⟨entry, isLast, rfl⟩ := map_eq_some_iff.mp last.symm
  have member := mem_of_getLast? isLast
  exact (readied.accounts.partitions entry member).trans (readied.partitions entry member)

theorem slot_le_lac (found : ledger.lac = some lac) (stores : ledger.info.Stores pos) :
    pos.slot ≤ lac.slot := by
  obtain ⟨entry, member, slot⟩ := (readied.accounts.stores pos).mp stores
  obtain ⟨last, isLast, atMost⟩ := readied.tracked.serving.settled.le_lac member
  rw [found, some.injEq] at isLast
  rw [← slot, isLast]
  exact slot_mono atMost

theorem first_unacked_none (free : -1 ≤ partition)
    (found : (firstUnackedPosition topic subscription storage).1 = .ok none)
    (other : ManagedLedgerPosition) (stores : ledger.info.Stores other) :
    state.Acked other.slot := by
  have ordered := readied.accounts.ordered
  have encodable := readied.tracked.encodable
  have grounded := readied.tracked.grounded
  rw [readied.first_unacked] at found
  cases isLac : ledger.lac with
  | none =>
    obtain ⟨entry, member, _⟩ := (readied.accounts.stores other).mp stores
    rw [readied.lac_none isLac] at member
    cases member
  | some lac =>
    simp only [isLac, Except.ok.injEq] at found
    unfold firstUnackedOf at found
    cases candidate : firstCandidate ledger.info state with
    | none =>
      exact first_candidate_none ordered readied.mark_word
        (fun mark isMark => (grounded.stored mark (.inl isMark)).knows) candidate other stores
    | some start =>
      rw [candidate] at found
      have walked := first_candidate_walked ordered grounded.wellFormed.shaped readied.mark_word
        candidate
      have freed : ledger.info.Stores (cursorPosition other) := stores.of_slot rfl
      apply walk_unacked_none ordered encodable grounded.wellFormed.shaped _ start walked _
        found (cursorPosition other) freed rfl
      · intro beyond
        obtain before | ⟨_, smaller⟩ := (lt_iff lac _).mp beyond
        · exact absurd (readied.slot_le_lac isLac freed) (not_le.mpr before)
        · rw [readied.lac_partition isLac] at smaller
          change partition < -1 at smaller
          omega
      · have few := (after_lt_card walked.stores).trans_le (card_slots_le ledger.info)
        omega

theorem read_loop_one (visible : isVisible pos ledger.info lac = true) (fuel : Nat) :
    ∃ entry ∈ log, entry.1.slot = pos.slot ∧ readLoop storage.db storage.entryLog ledger.info lac 1
      (fuel + 1) (some pos) [] = .ok [messageOf entry] := by
  obtain ⟨entry, member, slot, read⟩ :=
    read_entry_record_visible readied.accounts readied.located readied.in_range visible
  have notBeyond := not_lt.mpr ((is_visible_iff _ _ _).mp visible).1
  refine ⟨entry, member, slot, ?_⟩
  rw [readLoop, if_neg (by simp [notBeyond]), if_pos visible, read]
  cases fuel with
  | zero => rfl
  | succ fuel =>
    cases ledger.info.nextPosition pos with
    | none => rfl
    | some next => simp [bind, Except.bind, pushRecord, readLoop, messageOf, recordOf]

variable {start : ManagedLedgerPosition}

theorem not_beyond (free : -1 ≤ partition) (isLac : ledger.lac = some lac)
    (inView : start.partition = partition ∨ start.partition = -1) (stores : ledger.info.Stores pos)
    (after : start.slot ≤ pos.slot) : ¬ lac < start := by
  intro beyond
  have reached := readied.slot_le_lac isLac stores
  obtain before | ⟨_, smaller⟩ := (lt_iff lac start).mp beyond
  · exact absurd (after.trans reached) (not_le.mpr before)
  · rw [readied.lac_partition isLac] at smaller
    omega

/-- A read comes back empty only if nothing is stored from there on. -/
theorem read_one (readable : (viewOf partition ledger log state).Readable start) :
    (readEntriesFrom topic start 1 storage).1 = .ok [] ∧
        (-1 ≤ partition → ∀ pos, ledger.info.Stores pos → pos.slot < start.slot) ∨
      ∃ entry ∈ log, (readEntriesFrom topic start 1 storage).1 = .ok [messageOf entry] ∧
        start.slot ≤ entry.1.slot ∧ ∀ pos, ledger.info.Stores pos → start.slot ≤ pos.slot →
          entry.1.slot ≤ pos.slot := by
  have accounts := readied.accounts
  have word := readable.word
  simp only [readEntriesFrom, topic_ledger_cached readied.tracked.serving.cached]
  rw [RocksDBManagedLedger.readEntriesFrom, if_neg (by omega)]
  cases isLac : ledger.lac with
  | none =>
    refine .inl ⟨rfl, fun _ pos stores => ?_⟩
    obtain ⟨entry, member, _⟩ := (accounts.stores pos).mp stores
    rw [readied.lac_none isLac] at member
    cases member
  | some lac =>
    simp only
    split_ifs with behind
    · refine .inl ⟨rfl, fun free pos stores => not_le.mp fun after => ?_⟩
      exact readied.not_beyond free isLac readable.partition stores after behind
    by_cases visible : isVisible start ledger.info lac = true
    · right
      obtain ⟨entry, member, slot, read⟩ := readied.read_loop_one visible _
      refine ⟨entry, member, by rw [read]; rfl, slot.symm.le, ?_⟩
      intro pos _ after
      rw [slot]
      exact after
    -- The start itself is not stored: it would have been visible.
    have apart : ∀ pos, ledger.info.Stores pos → pos.slot ≠ start.slot := fun pos stores here =>
      visible ((is_visible_iff _ _ _).mpr ⟨not_lt.mp behind, stores.of_slot here⟩)
    rw [readLoop, if_neg (by simp [behind]), if_neg visible]
    cases walked : ledger.info.nextPosition start with
    | none =>
      obtain ⟨message, member, same⟩ := readable.known
      have known : ledger.info.Knows start.ledgerId :=
        same ▸ (readied.stores_of_message member).knows
      exact .inl ⟨rfl, fun _ pos stores => lt_of_le_of_ne
        (next_position_none accounts.ordered word known walked pos stores) (apart pos stores)⟩
    | some next =>
      obtain ⟨stores, same, later, least⟩ := next_position_some accounts.ordered word walked
      by_cases passed : lac < next
      · left
        rw [readLoop, if_pos (by simp [passed])]
        refine ⟨rfl, fun free => ?_⟩
        exact absurd passed (readied.not_beyond free isLac (same ▸ readable.partition) stores
          (le_refl _))
      right
      have nextVisible : isVisible next ledger.info lac = true := by
        rw [is_visible_iff]
        exact ⟨not_lt.mp passed, stores⟩
      obtain ⟨entry, member, slot, read⟩ := readied.read_loop_one nextVisible _
      refine ⟨entry, member, by rw [read]; rfl, slot ▸ later.le, ?_⟩
      intro pos posStores after
      rw [slot]
      exact least pos posStores (lt_of_le_of_ne after (apart pos posStores).symm)

theorem presents : Presents ((rocksDb storage).reader topic subscription)
      (viewOf partition ledger log state) where
  lined := readied.lined
  firstUnacked := by
    refine ⟨_, congrArg (fun answer => Except.mapError TopicReadError.opening answer)
      (congrArg Prod.fst readied.first_unacked), ?_⟩
    intro position found
    have answered : (RocksDbManagedLedgerStorage.firstUnackedPosition topic subscription
        storage).1 = .ok (some position) := by
      rw [readied.first_unacked, found]
    obtain ⟨walked, unacked⟩ := readied.first_unacked_some answered
    obtain ⟨message, member, slot⟩ := readied.message_of_stores walked.stores
    refine ⟨readied.readable_of_stores walked.stores (.inr walked.free), ?_, message, member,
      slot, unacked⟩
    intro other otherMember before
    exact walked.passed _ (readied.stores_of_message otherMember) before
  exhausted free found message member := by
    apply readied.first_unacked_none free _ _ (readied.stores_of_message member)
    have answered := congrArg Prod.fst readied.first_unacked
    simp only [reader, answered, Except.mapError, Except.ok.injEq] at found
    rw [answered, found]
  read start readable := by
    obtain ⟨nothing, _⟩ | ⟨entry, member, read, after, least⟩ := readied.read_one readable
    · exact .inl nothing
    · refine .inr ⟨messageOf entry, mem_map.mpr ⟨entry, member, rfl⟩, read, after, ?_⟩
      intro other otherMember otherAfter
      exact least _ (readied.stores_of_message otherMember) otherAfter
  complete free start readable nothing message member := by
    obtain ⟨_, complete⟩ | ⟨_, _, read, _⟩ := readied.read_one readable
    · exact complete free _ (readied.stores_of_message member)
    · cases nothing.symm.trans read
  next message member := by
    have stores := readied.stores_of_message member
    refine ⟨ledger.info.nextPosition message.messageId.toPosition, ?_, ?_⟩
    · simp [reader, topic_ledger_cached readied.tracked.serving.cached, Except.map, Except.mapError]
    intro position found
    obtain ⟨nextStores, same, later, least⟩ := next_position_some readied.accounts.ordered
      (stores_word readied.tracked.encodable stores) found
    refine ⟨readied.readable_of_stores nextStores (.inl ?_), later, ?_⟩
    · exact same.trans (readied.lined.partitions message member)
    · intro other otherMember beyond
      exact least _ (readied.stores_of_message otherMember) beyond
  logicalNext message member := by
    have stores := readied.stores_of_message member
    have bound := (stores_bounds readied.tracked.encodable stores).2
    have limit : i64Bound + 1 < u64Modulus := by decide
    have below := readied.lined.below message member
    have entry : (message.messageId.toPosition.entryId + 1) % u64Modulus =
        message.messageId.toPosition.entryId + 1 := Nat.mod_eq_of_lt (by omega)
    constructor
    · refine ⟨⟨message, member, rfl⟩, ?_, ?_, ?_⟩
      · change toLex (_, _) < toLex (_, _) at below
        change toLex (_, (message.messageId.toPosition.entryId + 1) % u64Modulus) ≤ toLex (_, _)
        rw [Prod.Lex.toLex_lt_toLex] at below
        rw [Prod.Lex.toLex_le_toLex, entry]
        obtain earlier | same := below
        · exact .inl earlier
        · exact .inr same
      · simp only [nextPositionSingleLedger, entry]
        omega
      · exact .inl (readied.lined.partitions message member)
    · change message.messageId.toPosition.slot < _
      rw [slot_lt_iff]
      refine .inr ⟨rfl, ?_⟩
      change _ < (message.messageId.toPosition.entryId + 1) % u64Modulus
      rw [entry]
      exact Nat.lt_succ_self _
  acknowledged := readied.tracked.is_acknowledged
  entry messageId message := by
    have answer : ((rocksDb storage).reader topic
        subscription).getMessageEntryById messageId = messageIn log messageId := by
      simp only [reader, getMessageEntryById, topic_ledger_cached readied.tracked.serving.cached]
      exact get_message_entry_by_id_spec readied.tracked.serving.settled readied.located
        readied.in_range messageId
    rw [answer, message_in_eq_some readied.accounts]
    constructor
    · rintro ⟨entry, member, ids, rfl⟩
      exact ⟨mem_map.mpr ⟨entry, member, rfl⟩, ids⟩
    · rintro ⟨member, ids⟩
      obtain ⟨entry, inLog, rfl⟩ := mem_map.mp member
      exact ⟨entry, inLog, ids, rfl⟩

end Readied

theorem append_entry_log (serving : Serving topic storage ledger log)
    (located : Located (Holds storage.entryLog) storage.db log) (aligned : Aligned storage.entryLog)
    (items : List Item) :
    Aligned (appendMessages .none topic items storage).2.entryLog ∧
      Located (Holds (appendMessages .none topic items storage).2.entryLog)
        (appendMessages .none topic items storage).2.db
        (log ++ returned (appendMessages .none topic items storage).1 items) := by
  have traceless : WriteFaults.Traceless AppendFaults.none.entryLog :=
    ⟨rfl, fun _ _ impossible => by cases impossible⟩
  have kept := add_entries_aligned traceless aligned ledger storage.db items
  simp only [appendMessages, appendItems, topic_ledger_cached serving.cached]
  refine ⟨kept, ?_⟩
  by_cases empty : items = []
  · subst empty
    simpa [addEntriesWithPartitionAndMetadata, returned] using located
  rcases add_entries_cases .none ledger storage.db storage.entryLog empty with
    refused | ⟨assigned, indices, committed⟩
  · obtain ⟨error, failed⟩ := refused.failed
    rw [failed, returned, append_nil]
    exact (located.moved refused.moved).weaken fun _ _ holds => holds.extends refused.extends
  · rw [committed.result_eq, returned]
    exact committed.located serving.settled
      (located.weaken fun _ _ holds => holds.extends committed.extends) (committed.holds aligned)

section

variable (readied : Readied topic subscription partition storage ledger log state)
include readied

theorem Readied.append {items : List Item} (framed : ∀ item ∈ items, item.Framed)
    (partitions : ∀ item ∈ items, item.partition = partition)
    (fits : Fits topic (appendMessages .none topic items storage).2) :
    ∃ next, Readied topic subscription partition (appendMessages .none topic items storage).2 next
        (log ++ returned (appendMessages .none topic items storage).1 items) state ∧
      ledger.info.Extends next.info ∧
      ∀ entry ∈ returned (appendMessages .none topic items storage).1 items,
        ledger.info.writeSlot ≤ entry.1.slot := by
  have appended := append_messages_appended readied.tracked.serving .none items
  obtain ⟨aligned, located⟩ :=
    append_entry_log readied.tracked.serving readied.located readied.aligned items
  obtain ⟨next, tracked, grown⟩ := readied.tracked.append .none items fits
  have fresh entry (member : entry ∈ returned (appendMessages .none topic items storage).1 items) :
      entry.2 ∈ items ∧ ledger.info.writeSlot ≤ entry.1.slot := by
    cases outcome : (appendMessages .none topic items storage).1 with
    | error error =>
      rw [outcome] at member
      cases member
    | ok positions =>
      rw [outcome] at member
      obtain ⟨_, _, _, _, placed⟩ := appended.committed positions outcome
      exact ⟨of_mem_zip member |>.2, (placed _ (of_mem_zip member).1).1⟩
  refine ⟨next, ⟨tracked, located, ?_, ?_, aligned⟩, grown,
    fun entry member => (fresh entry member).2⟩
  · intro entry member
    obtain old | new := mem_append.mp member
    · exact readied.framed entry old
    · exact framed _ (fresh entry new).1
  · intro entry member
    obtain old | new := mem_append.mp member
    · exact readied.partitions entry old
    · exact partitions _ (fresh entry new).1

theorem Readied.write {next} (grounded : Grounded ledger.info next) :
    Readied topic subscription partition (writeCursor topic subscription next.encode storage) ledger
      log next where
  tracked := readied.tracked.write grounded
  located entry member := by
    obtain ⟨index, found, holds⟩ := readied.located entry member
    exact ⟨index, (set_cursor_frame _ _ _ _ (cursor_key_ne_entry_key _ _ _ _).symm).trans found,
      holds⟩
  framed := readied.framed
  partitions := readied.partitions
  aligned := readied.aligned

/-- An individual acknowledgement takes none back while no range ends at or below
the mark. -/
theorem Readied.ack_message_shared {messageId : MessageId}
    (stores : ledger.info.Stores messageId.toPosition) :
    ∃ next, Readied topic subscription partition
      (ackMessageShared topic subscription messageId storage).2 ledger log next ∧
      (ackMessageShared topic subscription messageId storage).1 = .ok () ∧
      (state.StopsAbove → next.StopsAbove ∧ next.Acked messageId.slot ∧
        ∀ pos, ledger.info.Stores pos → state.Acked pos.slot → next.Acked pos.slot) := by
  have grounded := readied.tracked.acked_grounded stores
  have spec : state.StopsAbove →
      (ackedState topic subscription storage ledger state messageId).StopsAbove ∧
      (ackedState topic subscription storage ledger state messageId).Acked messageId.slot ∧
      ∀ pos, ledger.info.Stores pos → state.Acked pos.slot →
        (ackedState topic subscription storage ledger state messageId).Acked pos.slot := by
    intro above
    have acked := (readied.tracked.ack_shared stores above).2.1
    refine ⟨acked.stopsAbove, (acked.acked _ stores).mpr (.inr rfl), ?_⟩
    intro pos posStores before
    exact (acked.acked pos posStores).mpr (.inl before)
  rcases ack_message_shared_eq readied.tracked.serving readied.tracked.found messageId with
    ⟨same, unchanged⟩ | written
  · rw [unchanged]
    rw [same] at spec
    exact ⟨state, readied, rfl, spec⟩
  · rw [written]
    exact ⟨_, readied.write grounded, rfl, spec⟩

end

theorem readied_created {base} (notCached : base.ledgers (managedLedgerName topic) = none)
    (missing : base.db (managedLedgerKey (managedLedgerName topic)) = none)
    (noCursor : base.db (cursorKey topic subscription) = none) (aligned : Aligned base.entryLog)
    (opened : topicLedger topic base = (.ok ledger, storage)) (fits : Fits topic storage)
    (partition : Int) :
    Readied topic subscription partition storage ledger [] .default := by
  have fresh := serving_fresh notCached missing (congrArg Prod.fst opened)
  have sameLog : storage.entryLog = base.entryLog := by
    simp only [topicLedger, openLedger, getOrOpenLedger, notCached] at opened
    cases outcome : openWithConfig .none (managedLedgerName topic) base.db
        base.config with
    | error failure => simp [outcome] at opened
    | ok pair =>
      simp only [outcome, Prod.mk.injEq] at opened
      rw [← opened.2]
  rw [opened] at fresh
  exact {
    tracked := {
      serving := fresh.1
      encodable := fresh.1.fits.mp fits
      found := cursor_state_missing ((fresh.2 subscription).trans noCursor)
      grounded := grounded_default ledger.info }
    located := by simp [Located]
    framed := by simp
    partitions := by simp
    aligned := sameLog ▸ aligned }

theorem Readied.open_cursor
    (readied : Readied topic subscription partition storage ledger log state) {options}
    (start : ∀ messageId, options.startMessageId = some messageId →
      ledger.info.Stores messageId.toPosition) :
    ∃ next result after, initializeOrOpenCursor topic subscription options storage =
        (.ok result, after) ∧
      Readied topic subscription partition after ledger log next ∧
      (firstUnackedPosition topic subscription after).1 = .ok result.firstUnacked ∧
      (state.StopsAbove → next.StopsAbove) := by
  unfold initializeOrOpenCursor
  by_cases present : cursorExists topic subscription storage = true
  · rw [if_pos present, readied.first_unacked]
    exact ⟨state, _, storage, rfl, readied, by rw [readied.first_unacked], fun above => above⟩
  have missing : storage.db (cursorKey topic subscription) = none := by
    simpa [cursorExists, cursorKey] using present
  have created := readied.write
    (grounded_initial readied.tracked.serving readied.tracked.encodable start)
  rw [if_neg present, create_cursor_eq readied.tracked.serving missing options]
  simp only
  rw [created.first_unacked]
  refine ⟨initialState ledger options, _, _, rfl, created, by rw [created.first_unacked], ?_⟩
  intro _ mark _ range member
  cases member

end PulsarLite.Storage.RocksDbManagedLedgerStorage
