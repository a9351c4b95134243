import PulsarLite.Storage.TrackedCursor

/-!
# Exactness of individual acknowledgements

A cursor created at the earliest position, with appends, individual
acknowledgements of stored messages, seeks to stored messages and restarts. What
it reports as acknowledged is what lies below the last seek target or was
acknowledged since, its mark ends the acknowledged prefix of the log, and its
ranges lie apart from each other beyond the mark.
-/

namespace PulsarLite.Storage.AckExactness

open List ManagedLedgerPosition
open ManagedCursorState (mk)
open RangeSet (empty)

variable {storage : RocksDbManagedLedgerStorage} {entry : ManagedLedgerPosition × Item}
  {rest : List (ManagedLedgerPosition × Item)}

open RocksDbManagedLedgerStorage ManagedCursorState StoredManagedLedgerInfo

/-- A store with what has happened to one subscription: the committed log, the
log at the last acknowledgement or seek, the last seek target, and the messages
acknowledged since. -/
structure Trace where
  storage : RocksDbManagedLedgerStorage
  log : CommittedLog
  seen : CommittedLog
  target : Option MessageId
  acked : List MessageId

def earliest : CursorInitOptions where
  initialPosition := .earliest
  startMessageId := none

def created (topic subscription : Text) (storage : RocksDbManagedLedgerStorage)
    (log : CommittedLog) : Trace where
  storage := (initializeOrOpenCursor topic subscription earliest storage).2
  log := log
  seen := log
  target := none
  acked := []

def append (topic : Text) (faults : AppendFaults) (items : List Item) (trace : Trace) : Trace :=
  { trace with
    storage := (appendMessages faults topic items trace.storage).2
    log := trace.log ++ returned (appendMessages faults topic items trace.storage).1 items }

section

variable (topic subscription : Text) (messageId : MessageId) (trace : Trace)

def ackShared : Trace :=
  { trace with
    storage := (ackMessageShared topic subscription messageId trace.storage).2
    seen := trace.log
    acked := messageId :: trace.acked }

def seek : Trace :=
  { trace with
    storage := (seekCursor topic subscription messageId trace.storage).2
    seen := trace.log
    target := some messageId
    acked := [] }

end

def reopen (topic : Text) (config : ManagedLedgerConfig) (trace : Trace) : Trace :=
  { trace with storage := restart topic config trace.storage }

/-- Every operation opens the cursor anew from RocksDB; `reopen` drops everything
in memory and opens the topic again too, possibly with another ledger size. -/
inductive Reachable (topic subscription : Text) : Trace → Prop
  | created (storage log) (history : TopicHistory topic storage log)
      (missing : storage.db (cursorKey topic subscription) = none) :
      Reachable topic subscription (created topic subscription storage log)
  | append (faults items trace) (before : Reachable topic subscription trace)
      (fits : Fits topic (append topic faults items trace).storage) :
      Reachable topic subscription (append topic faults items trace)
  | ackShared (messageId trace) (before : Reachable topic subscription trace)
      (stores : StoresId topic trace.storage messageId) :
      Reachable topic subscription (ackShared topic subscription messageId trace)
  | seek (messageId trace) (before : Reachable topic subscription trace)
      (stores : StoresId topic trace.storage messageId) :
      Reachable topic subscription (seek topic subscription messageId trace)
  | reopen (config trace) (before : Reachable topic subscription trace)
      (fits : Fits topic (reopen topic config trace).storage) :
      Reachable topic subscription (reopen topic config trace)

/-- What is to be acknowledged: everything below the target, and the messages
acknowledged since. -/
def Expected (trace : Trace) (pos : ManagedLedgerPosition) : Prop :=
  (∃ target ∈ trace.target, pos.slot < target.toPosition.slot) ∨
    ∃ messageId ∈ trace.acked, messageId.toPosition.slot = pos.slot

variable {info : StoredManagedLedgerInfo} {log : CommittedLog} {state : ManagedCursorState}

theorem first_not_acked (accounts : Accounts info (entry :: rest)) (stuck : Stuck info state)
    (missing : state.markDelete = none) : ¬ state.Acked entry.1.slot := by
  have stores := accounts.stored mem_cons_self
  cases found : info.firstPosition (-1) with
  | none => exact absurd stores (first_position_none found entry.1)
  | some first =>
    obtain ⟨firstStored, _, least⟩ := first_position_some accounts.ordered found
    obtain ⟨other, member, slot⟩ := (accounts.stores first).mp firstStored
    have same : first.slot = entry.1.slot := by
      apply le_antisymm (least entry.1 stores)
      rw [← slot]
      obtain rfl | later := mem_cons.mp member
      · exact le_refl _
      · exact (rel_of_pairwise_cons accounts.increasing later).le
    rw [← same]
    exact stuck.first missing first found

theorem next_not_acked {before} {next : ManagedLedgerPosition × Item}
    (accounts : Accounts info (before ++ entry :: next :: rest)) (grounded : Grounded info state)
    (stuck : Stuck info state) {mark} (found : state.markDelete = some mark)
    (here : entry.1.slot = mark.slot) : ¬ state.Acked next.1.slot := by
  have word := mark_word grounded.wellFormed found
  have increasing := pairwise_append.mp accounts.increasing
  have nextStored : info.Stores next.1 := accounts.stored (by simp)
  have after : mark.slot < next.1.slot := by
    rw [← here]
    exact rel_of_pairwise_cons increasing.2.1 mem_cons_self
  cases walked : info.nextPosition mark with
  | none =>
    have last := next_position_none accounts.ordered word
      (grounded.stored mark (.inl found)).knows walked next.1 nextStored
    exact absurd after (not_lt.mpr last)
  | some reached =>
    obtain ⟨reachedStored, _, beyond, least⟩ := next_position_some accounts.ordered word walked
    obtain ⟨other, member, slot⟩ := (accounts.stores reached).mp reachedStored
    have same : reached.slot = next.1.slot := by
      apply le_antisymm (least next.1 nextStored after)
      rw [← slot]
      rw [← slot, ← here] at beyond
      obtain early | late := mem_append.mp member
      · exact absurd (increasing.2.2 other early entry mem_cons_self) (not_lt.mpr beyond.le)
      obtain rfl | late := mem_cons.mp late
      · exact absurd beyond (lt_irrefl _)
      · obtain rfl | late := mem_cons.mp late
        · exact le_refl _
        · exact (rel_of_pairwise_cons (pairwise_cons.mp increasing.2.1).2 late).le
    rw [← same]
    exact stuck.next mark found reached walked

theorem mark_is_last_acked (accounts : Accounts info log) (grounded : Grounded info state)
    (stuck : Stuck info state) {acknowledged : ManagedLedgerPosition → Bool}
    (same : ∀ pos, acknowledged pos = true ↔ state.Acked pos.slot) :
    (((log.map Prod.fst).takeWhile acknowledged).getLast?.map slot) =
      state.markDelete.map slot := by
  cases found : state.markDelete with
  | none =>
    cases log with
    | nil => rfl
    | cons entry rest =>
      have refused : ¬ acknowledged entry.1 = true := by
        rw [same]
        exact first_not_acked accounts stuck found
      simp [takeWhile_cons_of_neg refused]
  | some mark =>
    obtain ⟨entry, member, here⟩ := (accounts.stores mark).mp (grounded.stored mark (.inl found))
    obtain ⟨before, rest, rfl⟩ := append_of_mem member
    have early : ∀ pos ∈ (before ++ [entry]).map Prod.fst, acknowledged pos = true := by
      intro pos posMember
      obtain ⟨other, otherMember, rfl⟩ := mem_map.mp posMember
      rw [same]
      refine .inl ⟨mark, found, ?_⟩
      rw [← here]
      obtain old | last := mem_append.mp otherMember
      · exact ((pairwise_append.mp accounts.increasing).2.2 other old entry mem_cons_self).le
      · rw [mem_singleton.mp last]
    have stops : (rest.map Prod.fst).takeWhile acknowledged = [] := by
      cases rest with
      | nil => rfl
      | cons next rest =>
        have refused : ¬ acknowledged next.1 = true := by
          rw [same]
          exact next_not_acked accounts grounded stuck found here
        exact takeWhile_cons_of_neg refused
    have split : before ++ entry :: rest = (before ++ [entry]) ++ rest := by simp
    rw [split, map_append, takeWhile_append_of_pos early, stops]
    simp [here]

/-- The invariant of a trace. The frontier is where the log as it was at the last
acknowledgement or seek puts it; entries appended since are not acknowledged. -/
structure Follows (topic subscription : Text) (trace : Trace) (ledger : RocksDBManagedLedger)
    (state : ManagedCursorState) (frozen : StoredManagedLedgerInfo) : Prop where
  tracked : Tracked topic subscription trace.storage ledger trace.log state
  accounts : Accounts frozen trace.seen
  grown : frozen.Extends ledger.info
  grounded : Grounded frozen state
  stuck : Stuck frozen state
  holes : state.HolesAbove
  target : ∀ target ∈ trace.target, ledger.info.Stores target.toPosition
  ackedIds : ∀ messageId ∈ trace.acked, ledger.info.Stores messageId.toPosition
  acked : ∀ pos, ledger.info.Stores pos → (state.Acked pos.slot ↔ Expected trace pos)

variable {topic subscription : Text} {trace : Trace} {ledger : RocksDBManagedLedger}
  {frozen : StoredManagedLedgerInfo}

section

variable (follows : Follows topic subscription trace ledger state frozen)
include follows

theorem Expected.below {pos} (expected : Expected trace pos) :
    pos.slot < ledger.info.writeSlot := by
  obtain ⟨target, isTarget, below⟩ | ⟨messageId, member, same⟩ := expected
  · exact below.trans (follows.tracked.ordered.slot_lt_write_slot (follows.target target isTarget))
  · rw [← same]
    exact follows.tracked.ordered.slot_lt_write_slot (follows.ackedIds messageId member)

theorem Follows.extend {log next} (tracked : Tracked topic subscription storage next log state)
    (grown : ledger.info.Extends next.info) :
    Follows topic subscription { trace with storage := storage, log := log } next state frozen where
  tracked := tracked
  accounts := follows.accounts
  grown := follows.grown.trans grown
  grounded := follows.grounded
  stuck := follows.stuck
  holes := follows.holes
  target target isTarget := grown.keeps _ (follows.target target isTarget)
  ackedIds messageId member := grown.keeps _ (follows.ackedIds messageId member)
  acked pos stores := by
    obtain old | beyond := grown.fresh pos stores
    · exact follows.acked pos old
    constructor
    · intro acked
      exact absurd acked (follows.tracked.grounded.not_acked follows.tracked.ordered beyond)
    · intro expected
      exact absurd (Expected.below follows expected) (not_lt.mpr beyond)

end

theorem follows_written {log target acked}
    (tracked : Tracked topic subscription storage ledger log state)
    (stuck : Stuck ledger.info state) (holes : state.HolesAbove)
    (targets : ∀ messageId ∈ target, ledger.info.Stores messageId.toPosition)
    (ackedIds : ∀ messageId ∈ acked, ledger.info.Stores messageId.toPosition)
    (exact : ∀ pos, ledger.info.Stores pos → (state.Acked pos.slot ↔ Expected
      { storage := storage, log := log, seen := log, target := target, acked := acked } pos)) :
    Follows topic subscription
      { storage := storage, log := log, seen := log, target := target, acked := acked }
      ledger state ledger.info where
  tracked := tracked
  accounts := tracked.serving.settled.accounts
  grown := .refl _
  grounded := tracked.grounded
  stuck := stuck
  holes := holes
  target := targets
  ackedIds := ackedIds
  acked := exact

theorem marked_stuck {info} (ordered : info.Ordered) (mark : Option ManagedLedgerPosition)
    (grounded : Grounded info (mk (mark.map cursorPosition) empty)) :
    Stuck info (mk (mark.map cursorPosition) empty) where
  next reached found next walked := by
    obtain ⟨_, _, after, _⟩ :=
      next_position_some ordered (mark_word grounded.wellFormed found) walked
    obtain ⟨pos, isMark, rfl⟩ := Option.map_eq_some_iff.mp found
    rw [marked_acked_iff]
    rintro ⟨other, isOther, below⟩
    rw [isMark] at isOther
    cases isOther
    exact absurd after (not_lt.mpr below)
  first missing first _ := by
    have noMark : mark = none := by simpa using missing
    rw [marked_acked_iff, noMark]
    simp

theorem marked_holes (mark : Option ManagedLedgerPosition) :
    (mk (mark.map cursorPosition) empty).HolesAbove := by
  intro _ _ range member
  simp [empty] at member

theorem follows_created {log} (history : TopicHistory topic storage log)
    (missing : storage.db (cursorKey topic subscription) = none) :
    ∃ ledger state, Follows topic subscription (created topic subscription storage log) ledger
      state ledger.info := by
  obtain ⟨ledger, serving, encodable⟩ := history.serving
  have written : (initializeOrOpenCursor topic subscription earliest storage).2 =
      writeCursor topic subscription ManagedCursorState.default.encode storage := by
    rw [initialize_or_open_cursor_storage serving, if_pos missing]
    rfl
  have grounded := grounded_default ledger.info
  have tracked := (tracked_start serving encodable missing).write grounded
  rw [← written] at tracked
  refine ⟨ledger, ManagedCursorState.default, follows_written tracked ?_ ?_ ?_ ?_ ?_⟩
  · exact marked_stuck tracked.ordered none grounded
  · exact marked_holes none
  · simp
  · simp
  intro pos _
  have nothing := marked_acked_iff none pos.slot
  simp only [Option.map_none] at nothing
  rw [ManagedCursorState.default, nothing]
  simp [Expected]

section

variable (follows : Follows topic subscription trace ledger state frozen)
include follows

theorem follows_acked {messageId : MessageId} (stores : StoresId topic trace.storage messageId) :
    ∃ next, Follows topic subscription (ackShared topic subscription messageId trace) ledger next
      ledger.info := by
  have tracked := follows.tracked
  have held := (tracked.serving.stores_id messageId).mp stores
  have stuckNow := Stuck.extends follows.grounded follows.accounts.ordered tracked.ordered
    follows.grown follows.stuck
  obtain ⟨reached, acked, stuck⟩ := tracked.ack_shared held
    (follows.holes.stops_above tracked.grounded.wellFormed.shaped)
  refine ⟨_, follows_written reached (stuck stuckNow) (acked.holesAbove follows.holes)
    follows.target ?_ ?_⟩
  · intro other member
    obtain rfl | old := mem_cons.mp member
    · exact held
    · exact follows.ackedIds other old
  · intro pos posStored
    rw [acked.acked pos posStored, follows.acked pos posStored, eq_comm (a := pos.slot)]
    simp only [Expected, mem_cons, exists_eq_or_imp, or_assoc]
    exact or_congr_right or_comm

theorem follows_sought {messageId : MessageId} (stores : StoresId topic trace.storage messageId) :
    ∃ next, Follows topic subscription (seek topic subscription messageId trace) ledger next
      ledger.info := by
  have tracked := follows.tracked
  have held := (tracked.serving.stores_id messageId).mp stores
  have grounded := grounded_marked tracked.encodable fun _ => previous_position_stores held
  have reached := tracked.write grounded
  have written := seek_cursor_eq tracked.serving tracked.found messageId
  refine ⟨_, follows_written (by rw [written]; exact reached)
    (marked_stuck tracked.ordered _ grounded) (marked_holes _) ?_ (by simp) ?_⟩
  · intro target isTarget
    cases isTarget
    exact held
  · intro pos posStored
    rw [← soughtState, sought_acked tracked.ordered posStored]
    simp [Expected]

end

theorem follows_reachable (reachable : Reachable topic subscription trace) :
    ∃ ledger state frozen, Follows topic subscription trace ledger state frozen := by
  induction reachable with
  | created storage log history missing =>
    obtain ⟨ledger, state, follows⟩ := follows_created history missing
    exact ⟨ledger, state, _, follows⟩
  | append faults items trace before fits ih =>
    obtain ⟨ledger, state, frozen, follows⟩ := ih
    obtain ⟨next, tracked, grown⟩ := follows.tracked.append faults items fits
    exact ⟨next, state, frozen, follows.extend tracked grown⟩
  | ackShared messageId trace before stores ih =>
    obtain ⟨ledger, state, frozen, follows⟩ := ih
    obtain ⟨next, acked⟩ := follows_acked follows stores
    exact ⟨ledger, next, _, acked⟩
  | seek messageId trace before stores ih =>
    obtain ⟨ledger, state, frozen, follows⟩ := ih
    obtain ⟨next, sought⟩ := follows_sought follows stores
    exact ⟨ledger, next, _, sought⟩
  | reopen config trace before fits ih =>
    obtain ⟨ledger, state, frozen, follows⟩ := ih
    obtain ⟨next, tracked, grown⟩ := follows.tracked.restart config fits
    exact ⟨next, state, frozen, follows.extend tracked grown⟩

/-- One range ends before another one starts, and not just before it. -/
def Apart (left right : Range ManagedLedgerPosition) : Prop :=
  left.stop.ledgerId < right.start.ledgerId ∨
    left.stop.ledgerId = right.start.ledgerId ∧ left.stop.entryId + 1 < right.start.entryId

theorem ranges_apart {state : ManagedCursorState} (wellFormed : state.WellFormed) :
    state.individuallyDeletedEntries.ranges.elements.Pairwise Apart := by
  apply state.individuallyDeletedEntries.ranges.sorted.imp_of_mem
  intro left right leftMember rightMember before
  obtain ⟨apart, notNext⟩ :=
    wellFormed.normalised.separated left leftMember right rightMember before
  have stop := wellFormed.stops left leftMember
  have start := wellFormed.starts right rightMember
  rw [lt_iff_slot_lt (stop.partition.trans start.partition.symm), slot_lt_iff] at apart
  obtain earlier | ⟨same, below⟩ := apart
  · exact .inl earlier
  refine .inr ⟨same, lt_of_le_of_ne below ?_⟩
  intro next
  apply notNext
  rw [succ_eq_some]
  refine ⟨?_, ext_slot ?_ (stop.partition.trans start.partition.symm)⟩
  · have small := stop.entry
    have bound := i64_bound_lt
    omega
  · exact (slot_eq_iff _ _).mpr ⟨same, next⟩

/-- The cursor reports exactly what is expected; its mark ends the acknowledged
prefix of the log as it was at the last acknowledgement or seek; its ranges lie
beyond the mark, each in one ledger, and apart from each other. -/
structure Exact (topic subscription : Text) (trace : Trace) : Prop where
  acknowledged : ∀ entry ∈ trace.log,
    (isAcknowledged topic subscription entry.1.toMessageId trace.storage).1 = true ↔
      Expected trace entry.1
  cursor : ∃ state, cursorState topic subscription trace.storage = .ok state ∧
    state.markDelete.map slot =
      ((trace.seen.map Prod.fst).takeWhile fun pos =>
        (isAcknowledged topic subscription pos.toMessageId trace.storage).1).getLast?.map
          slot ∧
    (∀ mark ∈ state.markDelete, ∀ range ∈ state.individuallyDeletedEntries.ranges,
      mark.slot < range.start.slot) ∧
    (∀ range ∈ state.individuallyDeletedEntries.ranges,
      range.start.ledgerId = range.stop.ledgerId ∧ range.start.entryId ≤ range.stop.entryId) ∧
    state.individuallyDeletedEntries.ranges.elements.Pairwise Apart

theorem individual_acks_are_exact (topic subscription : Text) (trace : Trace)
    (reachable : Reachable topic subscription trace) : Exact topic subscription trace := by
  obtain ⟨ledger, state, frozen, follows⟩ := follows_reachable reachable
  have tracked := follows.tracked
  have wellFormed := tracked.grounded.wellFormed
  have acknowledged : ∀ pos : ManagedLedgerPosition,
      (isAcknowledged topic subscription pos.toMessageId trace.storage).1 = true ↔
        state.Acked pos.slot := fun pos => tracked.is_acknowledged pos.toMessageId
  refine ⟨?_, state, tracked.found, ?_, follows.holes, ?_, ranges_apart wellFormed⟩
  · intro entry member
    rw [acknowledged]
    exact follows.acked entry.1 (tracked.serving.settled.accounts.stored member)
  · exact (mark_is_last_acked follows.accounts follows.grounded follows.stuck acknowledged).symm
  intro range member
  have ledgers := wellFormed.ledgers range member
  have ordered := slot_mono (wellFormed.normalised.ordered range member)
  rw [slot_le_iff] at ordered
  omega

/-- Five messages over three ledgers: a seek to the third message forgets that the
fifth was acknowledged, and the fourth is acknowledged after it. -/
def sampleTrace : Trace :=
  ackShared sampleTopic sampleSubscription (sampleId 3)
    (seek sampleTopic sampleSubscription (sampleId 2)
      (ackShared sampleTopic sampleSubscription (sampleId 4)
        (append sampleTopic .none (replicate 5 sampleMessage)
          (created sampleTopic sampleSubscription sampleStorage []))))

theorem reachable_sample_trace : Reachable sampleTopic sampleSubscription sampleTrace :=
  ((((Reachable.created _ [] sample_history rfl).append .none (replicate 5 sampleMessage) _
    (by decide)).ackShared (sampleId 4) _ (by decide)).seek (sampleId 2) _ (by decide)).ackShared
      (sampleId 3) _ (by decide)

theorem individual_acks_are_exact_five :
    sampleTrace.log.map (fun entry => (isAcknowledged sampleTopic sampleSubscription
      entry.1.toMessageId sampleTrace.storage).1) = [true, true, false, true, false] ∧
    Exact sampleTopic sampleSubscription sampleTrace :=
  ⟨by decide, individual_acks_are_exact sampleTopic sampleSubscription sampleTrace
    reachable_sample_trace⟩

end PulsarLite.Storage.AckExactness
