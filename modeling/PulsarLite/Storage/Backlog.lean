import Mathlib.Algebra.BigOperators.Group.Finset.Basic
import Mathlib.Order.Interval.Finset.Nat
import PulsarLite.Storage.MemoryCursor
import PulsarLite.Storage.SnapshotReads
import PulsarLite.Storage.TrackedCursor

/-!
# The backlog

Both backends compute the number of unacknowledged messages from the mark instead of
counting. In memory the holes are left out; in RocksDB they are left out as long as
there is no mark, and those at or below the mark are subtracted twice. The number is
right exactly where this makes no difference.
-/

namespace PulsarLite.Storage

open Library Finset StoredManagedLedgerInfo ManagedLedgerStore ManagedLedgerPosition Prod
open List (filter_map length_map)

variable {mark : ManagedLedgerPosition}

namespace StoredManagedLedgerInfo

variable {info : StoredManagedLedgerInfo}

theorem card_slots (increasing : info.ledgers.Pairwise fun left right =>
    left.ledgerId < right.ledgerId) : info.slots.card = info.totalEntries := by
  rw [slots, List.toFinset_card_of_nodup]
  · simp [totalEntries, List.length_flatMap]
  rw [List.nodup_flatMap]
  constructor
  · intro ledger _
    apply List.Nodup.map _ List.nodup_range
    intro left right same
    exact (Prod.mk.inj (toLex.injective same)).2
  apply increasing.imp
  intro left right before slot inLeft inRight
  obtain ⟨leftEntry, _, rfl⟩ := List.mem_map.mp inLeft
  obtain ⟨rightEntry, _, same⟩ := List.mem_map.mp inRight
  have ledgers := (Prod.mk.inj (toLex.injective same)).1
  omega

theorem mem_slots {ledgerId entry : Nat} : toLex (ledgerId, entry) ∈ info.slots ↔
    ∃ ledger ∈ info.ledgers, ledger.ledgerId = ledgerId ∧ entry < ledger.entries :=
  slot_mem_slots ⟨ledgerId, entry, -1⟩

theorem card_up_to (ordered : info.Ordered) (stores : info.Stores mark) :
    (info.slots.filter fun slot => slot ≤ mark.slot).card =
      ((info.ledgers.filter fun ledger => decide (ledger.ledgerId < mark.ledgerId)).map
        StoredLedgerInfo.entries).sum + mark.entryId + 1 := by
  let retired : StoredManagedLedgerInfo :=
    ⟨info.ledgers.filter fun ledger => decide (ledger.ledgerId < mark.ledgerId)⟩
  let own : Finset (Nat ×ₗ Nat) :=
    (range (mark.entryId + 1)).image fun entry => toLex (mark.ledgerId, entry)
  have isRetired ledgerId entry : toLex (ledgerId, entry) ∈ retired.slots ↔
      toLex (ledgerId, entry) ∈ info.slots ∧ ledgerId < mark.ledgerId := by
    rw [mem_slots, mem_slots]
    constructor
    · rintro ⟨ledger, member, rfl, bound⟩
      obtain ⟨old, before⟩ := List.mem_filter.mp member
      exact ⟨⟨ledger, old, rfl, bound⟩, of_decide_eq_true before⟩
    · rintro ⟨⟨ledger, member, rfl, bound⟩, before⟩
      exact ⟨ledger, List.mem_filter.mpr ⟨member, decide_eq_true before⟩, rfl, bound⟩
  have isOwn ledgerId entry : toLex (ledgerId, entry) ∈ own ↔
      ledgerId = mark.ledgerId ∧ entry ≤ mark.entryId := by
    simp only [own, mem_image, mem_range, Nat.lt_succ_iff]
    constructor
    · rintro ⟨other, bound, same⟩
      obtain ⟨sameLedger, sameEntry⟩ := Prod.mk.inj (toLex.injective same)
      exact ⟨sameLedger.symm, sameEntry ▸ bound⟩
    · rintro ⟨rfl, bound⟩
      exact ⟨entry, bound, rfl⟩
  have split : (info.slots.filter fun slot => slot ≤ mark.slot) = retired.slots ∪ own := by
    ext slot
    obtain ⟨⟨ledgerId, entry⟩, rfl⟩ := toLex.surjective slot
    rw [mem_filter, mem_union, isRetired, isOwn, slot, Prod.Lex.toLex_le_toLex]
    constructor
    · rintro ⟨member, before | ⟨same, bound⟩⟩
      · exact .inl ⟨member, before⟩
      · exact .inr ⟨same, bound⟩
    · rintro (⟨member, before⟩ | ⟨rfl, bound⟩)
      · exact ⟨member, .inl before⟩
      · obtain ⟨ledger, member, same, stored⟩ := stores
        exact ⟨mem_slots.mpr ⟨ledger, member, same, bound.trans_lt stored⟩, .inr ⟨rfl, bound⟩⟩
  have apart : Disjoint retired.slots own := by
    rw [disjoint_left]
    intro slot before same
    obtain ⟨⟨ledgerId, entry⟩, rfl⟩ := toLex.surjective slot
    have earlier := ((isRetired ledgerId entry).mp before).2
    rw [((isOwn ledgerId entry).mp same).1] at earlier
    exact lt_irrefl _ earlier
  have ownCard : own.card = mark.entryId + 1 := by
    rw [card_image_of_injective, card_range]
    intro left right same
    exact (Prod.mk.inj (toLex.injective same)).2
  rw [split, card_union_of_disjoint apart, card_slots (ordered.increasing.filter _), ownCard]
  rfl

end StoredManagedLedgerInfo

namespace ManagedCursorState

variable {info : StoredManagedLedgerInfo} {state : ManagedCursorState}

instance (ranges : OrderedSet (Range ManagedLedgerPosition)) (slot : Nat ×ₗ Nat) :
    Decidable (CoversSlot ranges slot) :=
  inferInstanceAs (Decidable (∃ range ∈ ranges.elements, _))

instance (state : ManagedCursorState) (slot : Nat ×ₗ Nat) : Decidable (state.Acked slot) :=
  inferInstanceAs (Decidable ((∃ mark ∈ state.markDelete, _) ∨ _))

theorem covers_stored (grounded : Grounded info state) {slot : Nat ×ₗ Nat}
    (covered : CoversSlot state.individuallyDeletedEntries.ranges slot) : slot ∈ info.slots := by
  obtain ⟨range, member, below, above⟩ := covered
  obtain ⟨⟨ledgerId, entry⟩, rfl⟩ := toLex.surjective slot
  obtain ⟨ledger, isLedger, same, bound⟩ := grounded.stored _ (.stop member)
  have ledgers := grounded.wellFormed.ledgers range member
  rw [slot, Prod.Lex.toLex_le_toLex] at below above
  exact mem_slots.mpr ⟨ledger, isLedger, by omega, by omega⟩

/-- Each range covers the entries between its ends, which are all stored. -/
theorem card_holes (grounded : Grounded info state) :
    (info.slots.filter fun slot =>
        CoversSlot state.individuallyDeletedEntries.ranges slot).card =
      (state.individuallyDeletedEntries.ranges.elements.map fun range =>
        range.stop.entryId - range.start.entryId + 1).sum := by
  have shaped := grounded.wellFormed.shaped
  let cells : Range ManagedLedgerPosition → Finset (Nat ×ₗ Nat) := fun range =>
    (Finset.Icc range.start.entryId range.stop.entryId).image fun entry =>
      toLex (range.start.ledgerId, entry)
  have isCell range (member : range ∈ state.individuallyDeletedEntries.ranges) : ∀ slot,
      slot ∈ cells range ↔ range.start.slot ≤ slot ∧ slot ≤ range.stop.slot := by
    intro slot
    obtain ⟨⟨ledgerId, entry⟩, rfl⟩ := toLex.surjective slot
    have ledgers := shaped.ledgers range member
    simp only [cells, mem_image, mem_Icc, slot, Prod.Lex.toLex_le_toLex, toLex_inj, Prod.mk.injEq]
    constructor
    · rintro ⟨other, bounds, rfl, rfl⟩
      omega
    · intro bounds
      exact ⟨entry, by omega, by omega, rfl⟩
  have union : (info.slots.filter fun slot =>
      CoversSlot state.individuallyDeletedEntries.ranges slot) =
        state.individuallyDeletedEntries.ranges.elements.toFinset.biUnion cells := by
    ext slot
    rw [mem_filter, mem_biUnion]
    constructor
    · rintro ⟨_, range, member, inside⟩
      exact ⟨range, List.mem_toFinset.mpr member, (isCell range member slot).mpr inside⟩
    rintro ⟨range, listed, inside⟩
    have member := List.mem_toFinset.mp listed
    have covered : CoversSlot state.individuallyDeletedEntries.ranges slot :=
      ⟨range, member, (isCell range member slot).mp inside⟩
    exact ⟨covers_stored grounded covered, covered⟩
  have apart left (leftListed : left ∈ state.individuallyDeletedEntries.ranges.elements.toFinset) :
      ∀ right ∈ state.individuallyDeletedEntries.ranges.elements.toFinset, left ≠ right →
        Disjoint (cells left) (cells right) := by
    intro right rightListed different
    have leftMember := List.mem_toFinset.mp leftListed
    have rightMember := List.mem_toFinset.mp rightListed
    rw [disjoint_left]
    intro slot inLeft inRight
    -- as positions without a partition, the ends of ranges compare as their slots do
    let pos : ManagedLedgerPosition := ⟨(ofLex slot).1, (ofLex slot).2, -1⟩
    have covers : ∀ range ∈ state.individuallyDeletedEntries.ranges, slot ∈ cells range →
        range.start ≤ pos ∧ pos ≤ range.stop := by
      intro range member inside
      obtain ⟨below, above⟩ := (isCell range member slot).mp inside
      exact ⟨(le_iff_slot_le (shaped.starts range member)).mpr below,
        (le_iff_slot_le (shaped.stops range member).symm).mpr above⟩
    exact different (shaped.normalised.unique leftMember rightMember
      (covers left leftMember inLeft) (covers right rightMember inRight))
  have sizes range (listed : range ∈ state.individuallyDeletedEntries.ranges.elements.toFinset) :
      (cells range).card = range.stop.entryId - range.start.entryId + 1 := by
    have member := List.mem_toFinset.mp listed
    have ledgers := shaped.ledgers range member
    have ordered := slot_mono (shaped.normalised.ordered range member)
    rw [slot_le_iff] at ordered
    rw [card_image_of_injective, Nat.card_Icc]
    · omega
    · intro left right same
      exact (Prod.mk.inj (toLex.injective same)).2
  have distinct : state.individuallyDeletedEntries.ranges.elements.Nodup :=
    state.individuallyDeletedEntries.ranges.sorted.imp fun before => before.ne
  rw [union, card_biUnion apart, sum_congr rfl sizes, List.sum_toFinset _ distinct]

/-- There is a mark if there are ranges, and the ranges are above it, unless nothing is
left to acknowledge. -/
def HolesCounted (info : StoredManagedLedgerInfo) (state : ManagedCursorState) : Prop :=
  (state.markDelete = none → state.individuallyDeletedEntries.ranges.elements = []) ∧
    (state.HolesAbove ∨ ∀ pos, info.Stores pos → state.Acked pos.slot)

theorem holes_above_iff (grounded : Grounded info state) (found : state.markDelete = some mark) :
    state.HolesAbove ↔ (info.slots.filter fun slot => slot ≤ mark.slot) ∩
      (info.slots.filter fun slot =>
        CoversSlot state.individuallyDeletedEntries.ranges slot) = ∅ := by
  rw [eq_empty_iff_forall_notMem]
  constructor
  · intro above slot member
    rw [mem_inter, mem_filter, mem_filter] at member
    obtain ⟨⟨_, below⟩, _, range, isRange, starts, _⟩ := member
    exact absurd (above mark found range isRange) (not_lt.mpr (starts.trans below))
  intro disjoint other isOther range isRange
  cases found.symm.trans isOther
  by_contra notAbove
  have covered : CoversSlot state.individuallyDeletedEntries.ranges range.start.slot :=
    ⟨range, isRange, le_refl _, slot_mono (grounded.wellFormed.normalised.ordered range isRange)⟩
  have stored := covers_stored grounded covered
  apply disjoint range.start.slot
  rw [mem_inter, mem_filter, mem_filter]
  exact ⟨⟨stored, not_lt.mp notAbove⟩, stored, covered⟩

theorem backlog_of_iff (ordered : info.Ordered) (grounded : Grounded info state)
    (small : info.totalEntries < i64Bound) :
    RocksDbManagedLedgerStorage.backlogOf info state =
        (info.slots.filter fun slot => ¬ state.Acked slot).card ↔ HolesCounted info state := by
  have total := card_slots ordered.increasing
  have parts := card_filter_add_card_filter_not (s := info.slots) (fun slot => state.Acked slot)
  have holes := card_holes grounded
  have word : info.totalEntries % u64Modulus = info.totalEntries :=
    Nat.mod_eq_of_lt (small.trans i64_bound_lt)
  unfold RocksDbManagedLedgerStorage.backlogOf HolesCounted
  rw [word]
  cases found : state.markDelete with
  | none =>
    have acked : (info.slots.filter fun slot => state.Acked slot) = info.slots.filter fun slot =>
        CoversSlot state.individuallyDeletedEntries.ranges slot := by
      apply filter_congr
      simp [Acked, found]
    have above : state.HolesAbove := by
      intro mark isMark
      cases found.symm.trans isMark
    rw [acked, holes] at parts
    simp only [true_imp_iff, above, true_or, and_true]
    constructor
    · intro same
      cases ranges : state.individuallyDeletedEntries.ranges.elements with
      | nil => rfl
      | cons range rest =>
        rw [ranges, List.map_cons, List.sum_cons] at parts
        omega
    · intro absent
      rw [absent, List.map_nil, List.sum_nil] at parts
      omega
  | some mark =>
    have marked := card_up_to ordered (grounded.stored mark (.inl found))
    have union : (info.slots.filter fun slot => state.Acked slot) =
        (info.slots.filter fun slot => slot ≤ mark.slot) ∪ info.slots.filter fun slot =>
          CoversSlot state.individuallyDeletedEntries.ranges slot := by
      rw [← filter_or]
      apply filter_congr
      simp [Acked, found]
    have overlap := card_union_add_card_inter (info.slots.filter fun slot => slot ≤ mark.slot)
      (info.slots.filter fun slot => CoversSlot state.individuallyDeletedEntries.ranges slot)
    have fewMarked := card_filter_le info.slots fun slot => slot ≤ mark.slot
    have fewHoles := card_filter_le info.slots fun slot =>
      CoversSlot state.individuallyDeletedEntries.ranges slot
    rw [← union, marked, holes] at overlap
    rw [marked] at fewMarked
    rw [holes] at fewHoles
    have all : (∀ pos, info.Stores pos → state.Acked pos.slot) ↔
        (info.slots.filter fun slot => state.Acked slot).card = info.slots.card := by
      rw [card_filter_eq_iff]
      constructor
      · intro each slot member
        exact each ⟨(ofLex slot).1, (ofLex slot).2, -1⟩ ((slot_mem_slots _).mp member)
      · intro each pos stores
        exact each pos.slot ((slot_mem_slots pos).mpr stores)
    rw [holes_above_iff grounded found, all, ← card_eq_zero]
    simp only [reduceCtorEq, false_imp_iff, true_and]
    have twice : 2 * i64Bound = u64Modulus := by decide
    rw [Nat.mod_eq_of_lt (by omega)]
    omega

end ManagedCursorState

theorem count_slots {info log} (accounts : Accounts info log) (counted : Nat ×ₗ Nat → Prop)
    [DecidablePred counted] :
    (log.filter fun entry => decide (counted entry.1.slot)).length =
      (info.slots.filter counted).card := by
  have distinct : (log.map fun entry => entry.1.slot).Nodup := by
    rw [List.nodup_iff_pairwise_ne, List.pairwise_map]
    exact accounts.increasing.imp fun before => before.ne
  have members : (log.map fun entry => entry.1.slot).toFinset = info.slots := by
    ext slot
    have stores := accounts.stores ⟨(ofLex slot).1, (ofLex slot).2, -1⟩
    rw [List.mem_toFinset, List.mem_map, ← slot_mem_slots] at *
    exact stores.symm
  have left : info.slots.filter counted =
      ((log.map fun entry => entry.1.slot).filter fun slot => decide (counted slot)).toFinset := by
    ext slot
    rw [← members, mem_filter, List.mem_toFinset, List.mem_toFinset, List.mem_filter,
      decide_eq_true_iff]
  rw [left, List.toFinset_card_of_nodup (distinct.filter _), filter_map, length_map]
  rfl

theorem length_eq_total {info log} (accounts : Accounts info log) :
    log.length = info.totalEntries := by
  have all := count_slots accounts fun _ => True
  rwa [decide_true, List.filter_true, filter_true, card_slots accounts.ordered.increasing] at all

namespace Backlog

section

open RocksDbManagedLedgerStorage ManagedCursorState

variable {topic subscription : Text} {storage : RocksDbManagedLedgerStorage} {log : CommittedLog}

/-- The states of a topic and one of its subscriptions, with the log: the subscription
is new to a topic of any history; operations on it name stored messages; what happens
to the cursors of other subscriptions is left open. -/
inductive Reachable (topic subscription : Text) :
    RocksDbManagedLedgerStorage → CommittedLog → Prop
  | created (storage : RocksDbManagedLedgerStorage) (log : CommittedLog)
      (history : TopicHistory topic storage log)
      (missing : storage.db (cursorKey topic subscription) = none) :
      Reachable topic subscription storage log
  | appended (faults items storage log) (before : Reachable topic subscription storage log)
      (fits : Fits topic (appendMessages faults topic items storage).2) :
      Reachable topic subscription (appendMessages faults topic items storage).2
        (log ++ returned (appendMessages faults topic items storage).1 items)
  | opened (options storage log) (before : Reachable topic subscription storage log)
      (stored : ∀ start ∈ options.startMessageId, StoresId topic storage start) :
      Reachable topic subscription (initializeOrOpenCursor topic subscription options storage).2 log
  | acked (messageId storage log) (before : Reachable topic subscription storage log)
      (stored : StoresId topic storage messageId) :
      Reachable topic subscription (ackMessage topic subscription messageId storage).2 log
  | ackedShared (messageId storage log) (before : Reachable topic subscription storage log)
      (stored : StoresId topic storage messageId) :
      Reachable topic subscription (ackMessageShared topic subscription messageId storage).2 log
  | sought (messageId storage log) (before : Reachable topic subscription storage log)
      (stored : StoresId topic storage messageId) :
      Reachable topic subscription (seekCursor topic subscription messageId storage).2 log
  | restarted (config storage log) (before : Reachable topic subscription storage log)
      (fits : Fits topic (restart topic config storage)) :
      Reachable topic subscription (restart topic config storage) log
  | otherCursor (other value storage log) (before : Reachable topic subscription storage log)
      (different : cursorKey topic subscription ≠ cursorKey topic other) :
      Reachable topic subscription (setCursor topic other value storage) log

theorem reachable_tracked (reachable : Reachable topic subscription storage log) :
    ∃ ledger state, Tracked topic subscription storage ledger log state := by
  induction reachable with
  | created storage log history missing =>
    obtain ⟨ledger, serving, encodable⟩ := history.serving
    exact ⟨ledger, _, tracked_start serving encodable missing⟩
  | appended faults items storage log before fits ih =>
    obtain ⟨ledger, state, tracked⟩ := ih
    obtain ⟨next, reached, _⟩ := tracked.append faults items fits
    exact ⟨next, state, reached⟩
  | opened options storage log before stored ih =>
    obtain ⟨ledger, state, tracked⟩ := ih
    rw [initialize_or_open_cursor_storage tracked.serving]
    split_ifs
    · refine ⟨ledger, _, tracked.write (grounded_initial tracked.serving tracked.encodable ?_)⟩
      intro messageId chosen
      exact (tracked.serving.stores_id messageId).mp (stored messageId chosen)
    · exact ⟨ledger, state, tracked⟩
  | acked messageId storage log before stored ih =>
    obtain ⟨ledger, state, tracked⟩ := ih
    exact ⟨ledger, _, tracked.ack ((tracked.serving.stores_id messageId).mp stored)⟩
  | ackedShared messageId storage log before stored ih =>
    obtain ⟨ledger, state, tracked⟩ := ih
    have held := (tracked.serving.stores_id messageId).mp stored
    rcases ack_message_shared_eq tracked.serving tracked.found messageId with
      ⟨_, unchanged⟩ | written
    · rw [unchanged]
      exact ⟨ledger, state, tracked⟩
    · rw [written]
      exact ⟨ledger, _, tracked.write (tracked.acked_grounded held)⟩
  | sought messageId storage log before stored ih =>
    obtain ⟨ledger, state, tracked⟩ := ih
    have held := (tracked.serving.stores_id messageId).mp stored
    rw [seek_cursor_eq tracked.serving tracked.found]
    exact ⟨ledger, _, tracked.write (grounded_marked tracked.encodable fun _ =>
      previous_position_stores held)⟩
  | restarted config storage log before fits ih =>
    obtain ⟨ledger, state, tracked⟩ := ih
    obtain ⟨next, reached, _⟩ := tracked.restart config fits
    exact ⟨next, state, reached⟩
  | otherCursor other value storage log before different ih =>
    obtain ⟨ledger, state, tracked⟩ := ih
    exact ⟨ledger, state, tracked.serving.set_cursor other value, tracked.encodable,
      (cursor_state_frame (set_cursor_frame _ _ _ _ different)).trans tracked.found,
      tracked.grounded⟩

end

section

open InMemoryManagedLedgerStorage

variable {topic subscription : Text} {storage : InMemoryManagedLedgerStorage}

theorem entries_eq_range (anchored : Anchored topic subscription storage) :
    (storage.messages topic).map (fun message => message.1.entry) =
      List.range (storage.messages topic).length := by
  apply List.ext_getElem
  · simp
  · intro index bound _
    rw [List.getElem_map, List.getElem_range]
    exact anchored.entry_eq (List.getElem?_eq_getElem (by simpa using bound))

section

variable (topic subscription : Text) (storage : InMemoryManagedLedgerStorage)

def frontier : Nat :=
  match storage.subscriptionCursors (cursorSubscriptionKey topic subscription) with
  | some shared => shared.markDelete.elim 0 (· + 1)
  | none =>
    match storage.cursors (cursorSubscriptionKey topic subscription) with
    | some mark => if mark = u64Max then 0 else mark + 1
    | none => 0

def holes : List (Range Nat) :=
  (storage.subscriptionCursors (cursorSubscriptionKey topic subscription)).elim [] fun shared =>
    shared.ackedHoles.ranges.elements

end

theorem acks_iff (topic subscription storage entry) : Acks topic subscription storage entry ↔
      entry < frontier topic subscription storage ∨
        ∃ range ∈ holes topic subscription storage, range.start ≤ entry ∧ entry ≤ range.stop := by
  unfold Acks frontier holes
  cases storage.subscriptionCursors (cursorSubscriptionKey topic subscription) with
  | some shared => exact SubscriptionCursor.acked_iff
  | none =>
    cases storage.cursors (cursorSubscriptionKey topic subscription) with
    | none => simp
    | some mark =>
      grind

section

variable (anchored : Anchored topic subscription storage)
include anchored

theorem frontier_le : frontier topic subscription storage ≤ (storage.messages topic).length := by
  by_contra beyond
  have last := anchored.acks_lt ((acks_iff topic subscription storage
    (frontier topic subscription storage - 1)).mpr (.inl (by omega)))
  omega

theorem hole_beyond {range : Range Nat} (member : range ∈ holes topic subscription storage) :
    frontier topic subscription storage ≤ range.start ∧
      Acks topic subscription storage range.start := by
  unfold holes frontier Acks at *
  cases held : storage.subscriptionCursors (cursorSubscriptionKey topic subscription) with
  | none => simp [held] at member
  | some shared =>
    rw [held] at member
    have sound := anchored.sound shared held
    exact ⟨sound.frontier_le member, sound.start_acked member⟩

theorem backlog_entries_eq : storage.backlogEntries topic subscription =
      (storage.messages topic).length - frontier topic subscription storage := by
  have sized := anchored.sized
  have bound := frontier_le anchored
  unfold frontier at bound ⊢
  unfold backlogEntries
  dsimp only
  cases held : storage.subscriptionCursors (cursorSubscriptionKey topic subscription) with
  | some shared =>
    rw [held] at bound
    dsimp only at bound ⊢
    cases marked : shared.markDelete with
    | none => rfl
    | some mark =>
      rw [marked] at bound
      dsimp only [Option.elim_some] at bound ⊢
      rw [Nat.mod_eq_of_lt (by omega)]
  | none =>
    rw [held] at bound
    cases found : storage.cursors (cursorSubscriptionKey topic subscription) with
    | none => rfl
    | some mark =>
      rw [found] at bound
      dsimp only at bound ⊢
      by_cases isMax : mark = u64Max
      · rw [if_neg (not_not.mpr isMax), if_pos isMax, Nat.sub_zero]
      · rw [if_neg isMax] at bound
        rw [if_pos isMax, if_neg isMax, Nat.mod_eq_of_lt (by omega)]

end

def ackedEntries (topic subscription : Text) (storage : InMemoryManagedLedgerStorage) :
    Finset Nat :=
  (range (storage.messages topic).length).filter fun entry =>
    storage.isAcknowledged topic subscription ⟨0, entry, -1⟩ = true

variable (anchored : Anchored topic subscription storage)
include anchored

theorem unacked_eq :
    (((storage.messages topic).map fst).filter fun messageId =>
        !storage.isAcknowledged topic subscription messageId).length +
      (ackedEntries topic subscription storage).card = (storage.messages topic).length := by
  have parts := card_filter_add_card_filter_not
    (s := range (storage.messages topic).length) fun entry =>
      storage.isAcknowledged topic subscription ⟨0, entry, -1⟩ = true
  have numbered : (((storage.messages topic).map fun message => message.1.entry).filter fun entry =>
      !storage.isAcknowledged topic subscription ⟨0, entry, -1⟩).length =
        ((range (storage.messages topic).length).filter fun entry =>
          ¬ storage.isAcknowledged topic subscription ⟨0, entry, -1⟩ = true).card := by
    rw [entries_eq_range anchored]
    congr 2
    funext entry
    simp
  rw [card_range, ← numbered, filter_map, length_map] at parts
  rw [filter_map, length_map, ackedEntries, add_comm]
  exact parts

theorem acked_entries_card :
    frontier topic subscription storage ≤ (ackedEntries topic subscription storage).card ∧
      ((ackedEntries topic subscription storage).card = frontier topic subscription storage ↔
        holes topic subscription storage = []) := by
  have inside entry : entry ∈ ackedEntries topic subscription storage ↔
      Acks topic subscription storage entry := by
    rw [ackedEntries, mem_filter, mem_range, anchored.is_acknowledged]
    exact ⟨And.right, fun acks => ⟨anchored.acks_lt acks, acks⟩⟩
  have covered : range (frontier topic subscription storage) ⊆
      ackedEntries topic subscription storage := by
    intro entry below
    exact (inside entry).mpr ((acks_iff _ _ _ entry).mpr (.inl (mem_range.mp below)))
  have fewer := card_le_card covered
  rw [card_range] at fewer
  refine ⟨fewer, ?_, ?_⟩
  · intro same
    have all := eq_of_subset_of_card_le covered (by rw [card_range, same])
    by_contra present
    obtain ⟨range, member⟩ := List.exists_mem_of_ne_nil _ present
    obtain ⟨beyond, acks⟩ := hole_beyond anchored member
    have listed := (inside range.start).mpr acks
    rw [← all, mem_range] at listed
    omega
  intro absent
  have all : ackedEntries topic subscription storage =
      range (frontier topic subscription storage) := by
    ext entry
    rw [inside, acks_iff, absent, mem_range]
    simp
  rw [all, card_range]

theorem memory_backlog_iff : storage.backlogEntries topic subscription =
        (((storage.messages topic).map fst).filter fun messageId =>
          !storage.isAcknowledged topic subscription messageId).length ↔
      holes topic subscription storage = [] := by
  have total := unacked_eq anchored
  obtain ⟨fewer, exactly⟩ := acked_entries_card anchored
  rw [backlog_entries_eq anchored, ← exactly]
  omega

end

open RocksDbManagedLedgerStorage

/-- A store of either kind in which operations on a topic and a subscription have named
stored messages only, with the ids of the messages. -/
inductive Kept (topic subscription : Text) : ManagedLedgerStore → List MessageId → Prop
  | memory (storage)
      (run : Run (.perform topic subscription)
        (InMemoryManagedLedgerStorage.Allowed topic) .new storage) :
      Kept topic subscription (.memory storage) ((storage.messages topic).map fst)
  | rocksDb (storage : RocksDbManagedLedgerStorage) (log : CommittedLog)
      (reachable : Reachable topic subscription storage log) :
      Kept topic subscription (.rocksDb storage) (log.map fun entry => entry.1.toMessageId)

def backlogEntries (topic subscription : Text) : ManagedLedgerStore → Option Nat
  | .memory storage => some (storage.backlogEntries topic subscription)
  | .rocksDb storage =>
    (RocksDbManagedLedgerStorage.backlogEntries topic subscription storage).1

/-- In memory there are no holes. In RocksDB there is a mark if there are ranges, and
the ranges are above it, unless everything is acknowledged. -/
def HolesCounted (topic subscription : Text) : ManagedLedgerStore → Prop
  | .memory storage => holes topic subscription storage = []
  | .rocksDb storage => ∀ ledger ∈ storage.ledgers (Keys.managedLedgerName topic),
      ∀ state ∈ (RocksDbManagedLedgerStorage.cursorState topic subscription storage).toOption,
        ManagedCursorState.HolesCounted ledger.info state

theorem backlog_exact_iff_holes_counted (topic subscription : Text) (store : ManagedLedgerStore)
    (messages : List MessageId) (kept : Kept topic subscription store messages)
    (small : messages.length < i64Bound) :
    backlogEntries topic subscription store = some (messages.filter fun messageId =>
        !(store.reader topic subscription).isAcknowledged messageId).length ↔
      HolesCounted topic subscription store := by
  cases kept with
  | memory storage run =>
    rw [backlogEntries, Option.some.injEq]
    exact memory_backlog_iff (InMemoryManagedLedgerStorage.anchored_run run)
  | rocksDb storage log reachable =>
    obtain ⟨ledger, state, tracked⟩ := reachable_tracked reachable
    have accounts := tracked.serving.settled.accounts
    have answer : backlogEntries topic subscription (.rocksDb storage) =
        some (backlogOf ledger.info state) := by
      simp only [backlogEntries, RocksDbManagedLedgerStorage.backlogEntries, readCursor,
        topic_ledger_cached tracked.serving.cached, topic_cursor_eq, tracked.found, Except.map,
        Except.toOption, cursorWith]
    have unacked : ((log.map fun entry => entry.1.toMessageId).filter fun messageId =>
        !((rocksDb storage).reader topic subscription).isAcknowledged
          messageId).length = (ledger.info.slots.filter fun slot => ¬ state.Acked slot).card := by
      rw [← count_slots accounts, filter_map, length_map]
      congr 2
      funext entry
      have answers := tracked.is_acknowledged entry.1.toMessageId
      by_cases acked : state.Acked entry.1.slot
      · simp [reader, answers.mpr acked, acked]
      · have missing := mt answers.mp acked
        simp [reader, missing, acked]
    have condition : HolesCounted topic subscription (.rocksDb storage) ↔
        ManagedCursorState.HolesCounted ledger.info state := by
      simp [HolesCounted, tracked.serving.cached, tracked.found, Except.toOption]
    rw [length_map, length_eq_total accounts] at small
    rw [answer, unacked, condition, Option.some.injEq]
    exact ManagedCursorState.backlog_of_iff accounts.ordered tracked.grounded small

/-- Five messages, of which some are acknowledged one by one. -/
def sampleAcked (acks : List Nat) : RocksDbManagedLedgerStorage :=
  acks.foldl (fun storage index =>
      (ackMessageShared sampleTopic sampleSubscription (sampleId index) storage).2)
    (appendMessages .none sampleTopic (List.replicate 5 sampleMessage) sampleStorage).2

def sampleLog : CommittedLog :=
  [] ++ returned (appendMessages .none sampleTopic (List.replicate 5 sampleMessage) sampleStorage).1
    (List.replicate 5 sampleMessage)

theorem sample_appended : Reachable sampleTopic sampleSubscription (sampleAcked []) sampleLog :=
  .appended .none (List.replicate 5 sampleMessage) sampleStorage []
    (Reachable.created _ _ sample_history (sample_no_cursors _)) (by decide)

theorem sample_acked (acks index)
    (before : Reachable sampleTopic sampleSubscription (sampleAcked acks) sampleLog)
    (stored : StoresId sampleTopic (sampleAcked acks) (sampleId index)) :
    Reachable sampleTopic sampleSubscription (sampleAcked (acks ++ [index])) sampleLog := by
  rw [sampleAcked, List.foldl_append]
  exact .ackedShared (sampleId index) _ _ before stored

theorem sample_backlog_exact :
    backlogEntries sampleTopic sampleSubscription (.rocksDb (sampleAcked [0, 3])) =
      some ((sampleLog.map fun entry => entry.1.toMessageId).filter fun messageId =>
        !((rocksDb (sampleAcked [0, 3])).reader sampleTopic
          sampleSubscription).isAcknowledged messageId).length := by
  have kept := Kept.rocksDb _ _ (sample_acked [0] 3 (sample_acked [] 0 sample_appended (by decide))
    (by decide))
  apply (backlog_exact_iff_holes_counted _ _ _ _ kept (by decide)).mpr
  rintro ledger ⟨⟩ state ⟨⟩
  refine ⟨nofun, .inl ?_⟩
  rintro mark ⟨⟩
  decide

/-- The second of two messages in memory, acknowledged first. -/
def sampleMemory : InMemoryManagedLedgerStorage :=
  [.append (-1) [] [1], .append (-1) [] [1], .initializeOrOpenCursor ⟨.earliest, none⟩,
    .ackMessageShared ⟨0, 1, -1⟩].foldl
      (.perform sampleTopic sampleSubscription)
      .new

theorem sample_memory_kept : Kept sampleTopic sampleSubscription (.memory sampleMemory)
    ((sampleMemory.messages sampleTopic).map fst) := by
  apply Kept.memory
  apply Run.of_permits
  exact ⟨by decide, by decide, by decide, by decide, trivial⟩

/-- Without a mark a hole is not subtracted, neither in memory nor in RocksDB; a hole
that a cumulative acknowledgement has passed is subtracted twice in RocksDB. -/
theorem backlog_counts_wrongly :
    (Kept sampleTopic sampleSubscription (.memory sampleMemory)
        ((sampleMemory.messages sampleTopic).map fst) ∧
      backlogEntries sampleTopic sampleSubscription (.memory sampleMemory) = some 2 ∧
      (((sampleMemory.messages sampleTopic).map fst).filter fun messageId =>
        !((memory sampleMemory).reader sampleTopic
          sampleSubscription).isAcknowledged messageId).length = 1) ∧
    (Reachable sampleTopic sampleSubscription (sampleAcked [1]) sampleLog ∧
      backlogEntries sampleTopic sampleSubscription (.rocksDb (sampleAcked [1])) = some 5 ∧
      ((sampleLog.map fun entry => entry.1.toMessageId).filter fun messageId =>
        !((rocksDb (sampleAcked [1])).reader sampleTopic
          sampleSubscription).isAcknowledged messageId).length = 4) ∧
    (Reachable sampleTopic sampleSubscription
        (ackMessage sampleTopic sampleSubscription (sampleId 2) (sampleAcked [1])).2 sampleLog ∧
      backlogEntries sampleTopic sampleSubscription (.rocksDb
        (ackMessage sampleTopic sampleSubscription (sampleId 2) (sampleAcked [1])).2) = some 1 ∧
      ((sampleLog.map fun entry => entry.1.toMessageId).filter fun messageId =>
        !((rocksDb
            (ackMessage sampleTopic sampleSubscription (sampleId 2) (sampleAcked [1])).2).reader
          sampleTopic sampleSubscription).isAcknowledged messageId).length = 2) := by
  have second := sample_acked [] 1 sample_appended (by decide)
  exact ⟨⟨sample_memory_kept, by decide, by decide⟩, ⟨second, by decide, by decide⟩,
    Reachable.acked (sampleId 2) _ _ second (by decide), by decide, by decide⟩

end Backlog

end PulsarLite.Storage
