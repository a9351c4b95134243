import PulsarLite.Storage.Backlog
import PulsarLite.Storage.RocksDbView
import PulsarLite.Storage.Seek

/-!
# Reads from any position on

A read walks from its start to the last position. The start need not be stored: it
may lie behind the end of its ledger, in a ledger that the topic does not have, or
have another partition than the messages. The walk keeps the partition of the start,
and the comparison with the last position looks at it. When the answer is the stored
messages from the start on, up to the limit, is stated exactly.
-/

namespace PulsarLite.Storage.RangeReads

open List Except ManagedLedgerPosition Option

variable {entry : ManagedLedgerPosition × Item} {pos : ManagedLedgerPosition}

open RocksDbManagedLedgerStorage RocksDBManagedLedger StoredManagedLedgerInfo

def atOrAfter (start : ManagedLedgerPosition) (log : CommittedLog) : CommittedLog :=
  log.filter fun entry => positionAtOrAfter entry.1 start

/-- Each entry of the log is read back as it was stored. -/
def Retrievable (storage : RocksDbManagedLedgerStorage) (log : CommittedLog) : Prop :=
  ∀ entry ∈ log, readEntryRecord storage.db storage.entryLog entry.1.ledgerId entry.1.entryId =
    .ok (some (entry.1, recordOf entry.2))

instance (storage : RocksDbManagedLedgerStorage) (log : CommittedLog) :
    Decidable (Retrievable storage log) :=
  inferInstanceAs (Decidable (∀ entry ∈ log, _ = _))

variable (topic : Text) (start : ManagedLedgerPosition) (limit : Nat)
  (storage : RocksDbManagedLedgerStorage) (log : CommittedLog)

def ReadExact : Prop :=
  (readEntriesFrom topic start limit storage).1 =
    .ok (((atOrAfter start log).take limit).map messageOf)

/-- Exactly when it keeps the promise: nothing is asked for, or nothing is stored from
the start on; or the topic has the ledger of the start, the entry id does not wrap into
stored entries, and the last message is not hidden by its partition. -/
def ReadSound : Prop :=
  limit = 0 ∨ atOrAfter start log = [] ∨
    (∃ ledger ∈ storage.ledgers (Keys.managedLedgerName topic), ledger.info.Knows start.ledgerId) ∧
    (start.entryId + 1 < u64Modulus ∨ ∀ entry ∈ log, entry.1.ledgerId ≠ start.ledgerId) ∧
    ((∀ last ∈ log.getLast?, start.partition ≤ last.1.partition) ∨
      limit < (atOrAfter start log).length)

variable {info : StoredManagedLedgerInfo} {log : CommittedLog} {start : ManagedLedgerPosition}

def walkPosition (partition : Int) (entry : ManagedLedgerPosition × Item) : ManagedLedgerPosition :=
  { entry.1 with partition := partition }

theorem walk_position_of_slot (slot : entry.1.slot = pos.slot) :
    walkPosition pos.partition entry = pos :=
  ext_slot slot rfl

theorem at_or_after_iff :
    entry ∈ atOrAfter start log ↔ entry ∈ log ∧ start.slot ≤ entry.1.slot := by
  simp [atOrAfter, positionAtOrAfter]

theorem ends_with (increasing : log.Pairwise fun left right => left.1.slot < right.1.slot)
    (slot : Nat ×ₗ Nat) :
    ∃ early, log = early ++ log.filter fun entry => decide (slot ≤ entry.1.slot) := by
  induction log with
  | nil => exact ⟨[], rfl⟩
  | cons entry rest ih =>
    obtain ⟨before, later⟩ := pairwise_cons.mp increasing
    by_cases reached : slot ≤ entry.1.slot
    · refine ⟨[], ?_⟩
      rw [nil_append, eq_comm, filter_eq_self]
      intro other member
      obtain rfl | inRest := mem_cons.mp member
      · simpa using reached
      · simpa using reached.trans (before other inRest).le
    · obtain ⟨early, split⟩ := ih later
      refine ⟨entry :: early, ?_⟩
      rw [filter_cons_of_neg (by simpa using reached), cons_append, ← split]

theorem next_of_known (accounts : Accounts info log) (known : info.Knows pos.ledgerId) :
    info.nextPosition pos = (log.filter fun entry =>
      decide (walkSlot pos ≤ entry.1.slot)).head?.map (walkPosition pos.partition) := by
  cases following : log.filter (fun entry => decide (walkSlot pos ≤ entry.1.slot)) with
  | nil =>
    rw [filter_eq_nil_iff] at following
    cases walked : info.nextPosition pos with
    | none => rfl
    | some next =>
      obtain ⟨stores, _, after, _⟩ := next_position_least accounts.ordered walked
      obtain ⟨entry, member, slot⟩ := (accounts.stores next).mp stores
      exact absurd (decide_eq_true (slot ▸ after)) (following entry member)
  | cons first rest =>
    have members entry : entry ∈ first :: rest ↔
        entry ∈ log ∧ walkSlot pos ≤ entry.1.slot := by
      rw [← following, mem_filter, decide_eq_true_iff]
    have increasing := accounts.increasing.filter fun entry =>
      decide (walkSlot pos ≤ entry.1.slot)
    rw [following, pairwise_cons] at increasing
    obtain ⟨inLog, reached⟩ := (members first).mp mem_cons_self
    cases walked : info.nextPosition pos with
    | none =>
      have before := next_position_end accounts.ordered known walked _ (accounts.stored inLog)
      exact absurd reached (not_le.mpr before)
    | some next =>
      obtain ⟨stores, same, after, least⟩ := next_position_least accounts.ordered walked
      obtain ⟨entry, member, slot⟩ := (accounts.stores next).mp stores
      have atMost := least _ (accounts.stored inLog) reached
      have isFirst : entry = first := by
        obtain here | later := mem_cons.mp ((members entry).mpr ⟨member, slot ▸ after⟩)
        · exact here
        · have order := increasing.1 entry later
          rw [slot] at order
          exact absurd atMost (not_le.mpr order)
      rw [head?_cons, map_some, ← same, ← isFirst, walk_position_of_slot slot]

theorem next_of_entry (accounts : Accounts info log) (encodable : info.Encodable) {early later}
    (partition : Int) (split : log = early ++ entry :: later) :
    info.nextPosition (walkPosition partition entry) =
      later.head?.map (walkPosition partition) := by
  have member : entry ∈ log := by
    rw [split]
    exact mem_append_right _ mem_cons_self
  have stores : info.Stores (walkPosition partition entry) := (accounts.stored member).of_slot rfl
  have word := stores_word encodable stores
  have increasing := accounts.increasing
  rw [split, pairwise_append, pairwise_cons] at increasing
  obtain ⟨_, ⟨after, _⟩, before⟩ := increasing
  have following : (log.filter fun other =>
      decide (walkSlot (walkPosition partition entry) ≤ other.1.slot)) = later := by
    simp only [walk_slot_le_of_word word]
    rw [split, filter_append, filter_eq_nil_iff.mpr, nil_append,
      filter_cons_of_neg (by simp [walkPosition, slot]),
      filter_eq_self.mpr]
    · intro other inLater
      exact decide_eq_true (after other inLater)
    · intro other inEarly
      simp only [decide_eq_true_eq, not_lt]
      exact (before other inEarly entry mem_cons_self).le
  rw [next_of_known accounts stores.knows, following]
  rfl

section

variable {topic : Text} {storage : RocksDbManagedLedgerStorage} {ledger : RocksDBManagedLedger}
  {lac : ManagedLedgerPosition} {limit : Nat}

/-- The part of the entries that the walk reaches before it is past the last position. -/
def reachable (partition : Int) (lac : ManagedLedgerPosition) (entries : CommittedLog) :
    CommittedLog :=
  entries.takeWhile fun entry => decide (walkPosition partition entry ≤ lac)

theorem read_loop_suffix (accounts : Accounts ledger.info log) (encodable : ledger.info.Encodable)
    (retrievable : Retrievable storage log) (partition : Int) (later) :
    ∀ (early : CommittedLog) (fuel : Nat) (out : List StoredMessage), log = early ++ later →
      later.length < fuel →
      readLoop storage.db storage.entryLog ledger.info lac limit fuel
          (later.head?.map (walkPosition partition)) out =
        .ok (out ++ ((reachable partition lac later).take (limit - out.length)).map messageOf) := by
  induction later with
  | nil =>
    intro early fuel out _ enough
    obtain ⟨rest, rfl⟩ := Nat.exists_eq_add_one.mpr enough
    simp [readLoop, reachable]
  | cons entry later ih =>
    intro early fuel out split enough
    obtain ⟨rest, rfl⟩ := Nat.exists_eq_add_one.mpr (Nat.zero_lt_of_lt enough)
    have member : entry ∈ log := by
      rw [split]
      exact mem_append_right _ mem_cons_self
    rw [head?_cons, map_some, readLoop]
    by_cases full : limit ≤ out.length
    · rw [if_pos (.inl full), Nat.sub_eq_zero_of_le full, take_zero, map_nil, append_nil]
    by_cases past : lac < walkPosition partition entry
    · rw [if_pos (.inr past), reachable, takeWhile_cons_of_neg (by simpa using past)]
      simp
    have visible : isVisible (walkPosition partition entry) ledger.info lac = true :=
      (is_visible_iff _ _ _).mpr ⟨not_lt.mp past, (accounts.stored member).of_slot rfl⟩
    have read : readEntryRecord storage.db storage.entryLog
        (walkPosition partition entry).ledgerId (walkPosition partition entry).entryId =
          .ok (some (entry.1, recordOf entry.2)) := retrievable entry member
    have step : limit - out.length = limit - (out ++ [messageOf entry]).length + 1 := by
      simp only [length_append, length_singleton]
      omega
    have onward := ih (early ++ [entry]) rest (out ++ [messageOf entry])
      (by rw [append_assoc]; exact split)
      (by simp only [length_cons] at enough; omega)
    rw [append_assoc] at onward
    rw [if_neg (by simp [full, past]), if_pos visible, read, reachable,
      takeWhile_cons_of_pos (by simpa using past), step, take_succ_cons,
      map_cons, next_of_entry accounts encodable partition split]
    exact onward

theorem read_eq (cached : storage.ledgers (Keys.managedLedgerName topic) = some ledger)
    (isLac : ledger.lac = some lac) (positive : limit ≠ 0) :
    (readEntriesFrom topic start limit storage).1 = (if lac < start then .ok []
        else readLoop storage.db storage.entryLog ledger.info lac limit
          (ledger.info.totalEntries + 2) (some start) []).mapError .reading := by
  simp only [RocksDbManagedLedgerStorage.readEntriesFrom, topic_ledger_cached cached]
  rw [RocksDBManagedLedger.readEntriesFrom, if_neg positive, isLac]

variable (serving : Serving topic storage ledger log) (encodable : ledger.info.Encodable)
  (retrievable : Retrievable storage log) (isLac : ledger.lac = some lac) (positive : limit ≠ 0)
include serving encodable retrievable isLac positive

theorem read_stored (stores : ledger.info.Stores start) :
    (readEntriesFrom topic start limit storage).1 =
      .ok (((reachable start.partition lac (atOrAfter start log)).take limit).map messageOf) := by
  have accounts := serving.settled.accounts
  obtain ⟨early, split⟩ := ends_with accounts.increasing start.slot
  have counted := length_eq_total accounts
  have fewer : (atOrAfter start log).length ≤ log.length := length_filter_le _ _
  have first : (atOrAfter start log).head?.map (walkPosition start.partition) = some start := by
    obtain ⟨entry, member, slot⟩ := (accounts.stores start).mp stores
    have inside : entry ∈ atOrAfter start log := at_or_after_iff.mpr ⟨member, slot.symm.le⟩
    have increasing : (atOrAfter start log).Pairwise fun left right => left.1.slot < right.1.slot :=
      accounts.increasing.filter _
    cases entries : atOrAfter start log with
    | nil =>
      rw [entries] at inside
      cases inside
    | cons head rest =>
      rw [entries, pairwise_cons] at increasing
      have headMember : head ∈ atOrAfter start log := by
        rw [entries]
        exact mem_cons_self
      rw [entries] at inside
      obtain rfl | later := mem_cons.mp inside
      · rw [head?_cons, map_some, walk_position_of_slot slot]
      · have order := increasing.1 entry later
        rw [slot] at order
        exact absurd (at_or_after_iff.mp headMember).2 (not_le.mpr order)
  rw [read_eq serving.cached isLac positive]
  split_ifs with beyond
  · cases entries : atOrAfter start log with
    | nil => simp [reachable, Except.mapError]
    | cons head rest =>
      rw [entries, List.head?_cons, map_some, some.injEq] at first
      rw [reachable, List.takeWhile_cons_of_neg (by simpa [first] using beyond)]
      simp [Except.mapError]
  · rw [← first, read_loop_suffix accounts encodable retrievable start.partition
      (atOrAfter start log) early _ [] split (by omega)]
    rfl

theorem read_missing (missing : ¬ ledger.info.Stores start) (before : start ≤ lac) :
    (ledger.info.Knows start.ledgerId → (readEntriesFrom topic start limit storage).1 =
      .ok (((reachable start.partition lac
        (log.filter fun entry => decide (walkSlot start ≤ entry.1.slot))).take limit).map
          messageOf)) ∧
    (¬ ledger.info.Knows start.ledgerId →
      (readEntriesFrom topic start limit storage).1 = .ok []) := by
  have accounts := serving.settled.accounts
  have counted := length_eq_total accounts
  have hidden : isVisible start ledger.info lac ≠ true := fun visible =>
    missing ((is_visible_iff _ _ _).mp visible).2
  rw [read_eq serving.cached isLac positive, if_neg (not_lt.mpr before), readLoop,
    if_neg (by simp [positive, before]), if_neg hidden]
  constructor
  · intro known
    obtain ⟨early, split⟩ := ends_with accounts.increasing (walkSlot start)
    have fewer := length_filter_le
      (fun entry : ManagedLedgerPosition × Item => decide (walkSlot start ≤ entry.1.slot)) log
    rw [next_of_known accounts known, read_loop_suffix accounts encodable retrievable
      start.partition _ early _ [] split (by omega)]
    rfl
  · intro unknown
    rw [next_position_unknown unknown]
    rfl

end

section

variable {limit : Nat} {last : ManagedLedgerPosition × Item} {entries early : CommittedLog}
  {partition : Int}

theorem walk_position_lt (before : entry.1.slot < last.1.slot) :
    walkPosition partition entry < last.1 :=
  (lt_iff _ _).mpr (.inl before)

section

variable (increasing : (entries ++ [last]).Pairwise fun left right => left.1.slot < right.1.slot)
include increasing

theorem reachable_all : reachable partition last.1 (entries ++ [last]) =
      if partition ≤ last.1.partition then entries ++ [last] else entries := by
  have before : ∀ entry ∈ entries, decide (walkPosition partition entry ≤ last.1) = true := by
    intro entry member
    have order := (pairwise_append.mp increasing).2.2 entry member last (mem_singleton_self _)
    exact decide_eq_true (walk_position_lt order).le
  rw [reachable, takeWhile_append_of_pos before]
  split_ifs with inside
  · rw [takeWhile_cons_of_pos, takeWhile_nil]
    apply decide_eq_true
    exact (le_iff _ _).mpr (.inr ⟨rfl, inside⟩)
  · rw [takeWhile_cons_of_neg, append_nil]
    simp only [decide_eq_true_eq, not_le]
    exact (lt_iff _ _).mpr (.inr ⟨rfl, not_le.mp inside⟩)

theorem reachable_exact_iff :
    ((reachable partition last.1 (entries ++ [last])).take limit).map messageOf =
        ((entries ++ [last]).take limit).map messageOf ↔
      partition ≤ last.1.partition ∨ limit < (entries ++ [last]).length := by
  rw [reachable_all increasing]
  split_ifs with inside
  · simp [inside]
  constructor
  · intro same
    have lengths := congrArg List.length same
    simp only [length_map, length_take, length_append, length_singleton] at lengths ⊢
    omega
  · intro short
    simp only [length_append, length_singleton] at short
    rw [take_append_of_le_length (by omega)]

end

variable {topic : Text} {storage : RocksDbManagedLedgerStorage} {ledger : RocksDBManagedLedger}

theorem at_or_after_last (isLast : log = early ++ [last]) (reached : start.slot ≤ last.1.slot) :
    atOrAfter start log = atOrAfter start early ++ [last] := by
  rw [isLast, atOrAfter, filter_append, filter_cons_of_pos]
  · rfl
  · exact decide_eq_true reached

variable (serving : Serving topic storage ledger log) (encodable : ledger.info.Encodable)
  (retrievable : Retrievable storage log) (isLast : log = early ++ [last])
  (reached : start.slot ≤ last.1.slot)
include serving isLast

theorem lac_of_last : ledger.lac = some last.1 := by
  rw [serving.settled.lac, isLast, getLast?_concat]
  rfl

include reached

theorem exact_iff_of_walk (read : (readEntriesFrom topic start limit storage).1 =
      .ok (((reachable start.partition last.1 (atOrAfter start log)).take limit).map messageOf)) :
    ReadExact topic start limit storage log ↔
      start.partition ≤ last.1.partition ∨ limit < (atOrAfter start log).length := by
  have increasing : (atOrAfter start log).Pairwise fun left right =>
    left.1.slot < right.1.slot := serving.settled.accounts.increasing.filter _
  rw [ReadExact, read, ok.injEq]
  rw [at_or_after_last isLast reached] at increasing ⊢
  exact reachable_exact_iff increasing

include encodable retrievable

variable (positive : limit ≠ 0)
include positive

/-- The entry id wraps: the walk goes back to the start of its ledger. -/
theorem not_exact_of_wrap (missing : ¬ ledger.info.Stores start)
    (known : ledger.info.Knows start.ledgerId) (wraps : start.entryId + 1 = u64Modulus)
    (member : entry ∈ log) (here : entry.1.ledgerId = start.ledgerId) (before : start ≤ last.1) :
    ¬ ReadExact topic start limit storage log := by
  have accounts := serving.settled.accounts
  have isLac := lac_of_last serving isLast
  have read := (read_missing serving encodable retrievable isLac positive missing before).1 known
  have word := stores_word encodable (accounts.stored member)
  have back : walkSlot start ≤ entry.1.slot := by
    rw [walk_slot_le_iff, wraps, Nat.mod_self]
    omega
  have early : entry.1.slot < start.slot := by
    rw [slot_lt_iff]
    omega
  have increasing := accounts.increasing.filter fun entry =>
    decide (walkSlot start ≤ entry.1.slot)
  have inside : entry ∈ log.filter fun entry => decide (walkSlot start ≤ entry.1.slot) :=
    mem_filter.mpr ⟨member, decide_eq_true back⟩
  intro isExact
  rw [ReadExact, read, ok.injEq] at isExact
  cases following : log.filter (fun entry => decide (walkSlot start ≤ entry.1.slot)) with
  | nil =>
    rw [following] at inside
    cases inside
  | cons head rest =>
    rw [following, pairwise_cons] at increasing
    rw [following] at inside isExact
    -- the first message of the answer lies before the start
    have headBefore : head.1.slot < start.slot := by
      obtain rfl | later := mem_cons.mp inside
      · exact early
      · exact (increasing.1 entry later).trans early
    have counted : limit = limit - 1 + 1 := by omega
    have inReach : reachable start.partition last.1 (head :: rest) =
        head :: reachable start.partition last.1 rest :=
      takeWhile_cons_of_pos (decide_eq_true (walk_position_lt (headBefore.trans_le reached)).le)
    rw [inReach, counted, take_succ_cons, map_cons] at isExact
    have answered : messageOf head ∈
        ((atOrAfter start log).take (limit - 1 + 1)).map messageOf := by
      rw [← isExact]
      exact mem_cons_self
    obtain ⟨other, inAnswer, same⟩ := mem_map.mp answered
    have after := (at_or_after_iff.mp (mem_of_mem_take inAnswer)).2
    have sameSlot : other.1.slot = head.1.slot :=
      congrArg (fun message => message.messageId.slot) same
    rw [sameSlot] at after
    exact absurd after (not_le.mpr headBefore)

theorem read_known (known : ledger.info.Knows start.ledgerId)
    (apart : start.entryId + 1 < u64Modulus ∨ ∀ entry ∈ log, entry.1.ledgerId ≠ start.ledgerId) :
    (readEntriesFrom topic start limit storage).1 =
      .ok (((reachable start.partition last.1 (atOrAfter start log)).take limit).map
        messageOf) := by
  have accounts := serving.settled.accounts
  have isLac := lac_of_last serving isLast
  by_cases stores : ledger.info.Stores start
  · exact read_stored serving encodable retrievable isLac positive stores
  have different : ∀ entry ∈ log, entry.1.slot ≠ start.slot := fun entry member same =>
    stores ((accounts.stored member).of_slot same)
  have lastMember : last ∈ log := by simp [isLast]
  have before : start ≤ last.1 := (le_iff _ _).mpr
    (.inl (lt_of_le_of_ne reached (different last lastMember).symm))
  have found := (read_missing serving encodable retrievable isLac positive stores before).1 known
  have same : (log.filter fun entry => decide (walkSlot start ≤ entry.1.slot)) =
      atOrAfter start log := by
    apply filter_congr
    intro entry member
    have notHere := different entry member
    rw [positionAtOrAfter, decide_eq_decide]
    rw [Ne, slot_eq_iff] at notHere
    rw [walk_slot_le_iff, slot_le_iff]
    obtain small | elsewhere := apart
    · rw [Nat.mod_eq_of_lt small]
      omega
    · have other := elsewhere entry member
      omega
  rw [found, same]

theorem exact_iff_reached (word : start.entryId < u64Modulus) :
    ReadExact topic start limit storage log ↔
      ledger.info.Knows start.ledgerId ∧
      (start.entryId + 1 < u64Modulus ∨ ∀ entry ∈ log, entry.1.ledgerId ≠ start.ledgerId) ∧
      (start.partition ≤ last.1.partition ∨ limit < (atOrAfter start log).length) := by
  have accounts := serving.settled.accounts
  have isLac := lac_of_last serving isLast
  by_cases sound : ledger.info.Knows start.ledgerId ∧ (start.entryId + 1 < u64Modulus ∨
      ∀ entry ∈ log, entry.1.ledgerId ≠ start.ledgerId)
  · rw [exact_iff_of_walk serving isLast reached
        (read_known serving encodable retrievable isLast reached positive sound.1 sound.2),
      and_iff_right sound.1, and_iff_right sound.2]
  rw [← and_assoc]
  refine iff_of_false ?_ fun both => sound both.1
  have missing : ¬ ledger.info.Stores start := fun stores =>
    sound ⟨stores.knows, .inl (stores_word encodable stores)⟩
  have lastMember : last ∈ log := by simp [isLast]
  have apart : start.slot ≠ last.1.slot := fun same =>
    missing ((accounts.stored lastMember).of_slot same.symm)
  have before : start ≤ last.1 := (le_iff _ _).mpr (.inl (lt_of_le_of_ne reached apart))
  by_cases known : ledger.info.Knows start.ledgerId
  · rw [and_iff_right known] at sound
    push Not at sound
    obtain ⟨wraps, entry, member, here⟩ := sound
    exact not_exact_of_wrap serving encodable retrievable isLast reached positive missing known
      (by omega) member here before
  intro isExact
  have lost := (read_missing serving encodable retrievable isLac positive missing before).2 known
  rw [ReadExact, lost, ok.injEq, at_or_after_last isLast reached] at isExact
  have lengths := congrArg List.length isExact
  simp only [length_nil, length_map, length_take, length_append, length_singleton] at lengths
  omega

end

theorem exact_iff {topic : Text} {storage ledger log} (serving : Serving topic storage ledger log)
    (encodable : ledger.info.Encodable) (retrievable : Retrievable storage log) (start)
    (word : start.entryId < u64Modulus) (limit : Nat) :
    ReadExact topic start limit storage log ↔ ReadSound topic start limit storage log := by
  by_cases zero : limit = 0
  · simp [ReadExact, ReadSound, RocksDbManagedLedgerStorage.readEntriesFrom,
      topic_ledger_cached serving.cached, RocksDBManagedLedger.readEntriesFrom, zero,
      Except.mapError]
  obtain empty | ⟨early, last, isLast⟩ := List.eq_nil_or_concat' log
  · have isLac : ledger.lac = none := by
      rw [serving.settled.lac, empty]
      rfl
    have nothing : (readEntriesFrom topic start limit storage).1 = .ok [] := by
      simp [RocksDbManagedLedgerStorage.readEntriesFrom, topic_ledger_cached serving.cached,
        RocksDBManagedLedger.readEntriesFrom, zero, isLac, Except.mapError]
    simp [ReadExact, ReadSound, nothing, empty, atOrAfter]
  have isLac := lac_of_last serving isLast
  by_cases reached : start.slot ≤ last.1.slot
  · have nonempty : atOrAfter start log ≠ [] := by
      rw [at_or_after_last isLast reached]
      exact concat_ne_nil _ _
    have atLast : log.getLast? = some last := by rw [isLast, getLast?_concat]
    rw [exact_iff_reached serving encodable retrievable isLast reached zero word, ReadSound]
    simp [zero, nonempty, serving.cached, atLast]
  have beyond : last.1 < start := (lt_iff _ _).mpr (.inl (not_le.mp reached))
  have none : atOrAfter start log = [] := by
    rw [eq_nil_iff_forall_not_mem]
    intro entry inside
    obtain ⟨member, after⟩ := at_or_after_iff.mp inside
    obtain ⟨top, isTop, atMost⟩ := serving.settled.le_lac member
    rw [isLac, some.injEq] at isTop
    rw [← isTop] at atMost
    exact reached (after.trans (slot_mono atMost))
  rw [ReadExact, read_eq serving.cached isLac zero, if_pos beyond, ReadSound, none]
  simp [Except.mapError]

/-- For every history of a topic whose entries can be read, every start and every limit:
the read is exact exactly under the stated condition. -/
theorem read_exact_iff_sound (topic : Text) (storage : RocksDbManagedLedgerStorage)
    (log : CommittedLog) (history : TopicHistory topic storage log)
    (retrievable : Retrievable storage log) (start : ManagedLedgerPosition)
    (word : start.toMessageId.IsWord) (limit : Nat) :
    ReadExact topic start limit storage log ↔ ReadSound topic start limit storage log := by
  obtain ⟨ledger, serving, encodable⟩ := history.serving
  exact exact_iff serving encodable retrievable start word.2 limit

open Seek

/-- From the second of three messages on. -/
theorem read_two_of_three : ReadExact sampleTopic
    (sampleId 1).toPosition 2 threeMessages threeLog :=
  (read_exact_iff_sound sampleTopic threeMessages threeLog history_three_messages (by decide)
    (sampleId 1).toPosition (by decide) 2).mpr (by
      refine .inr (.inr ⟨⟨_, rfl, _, mem_cons_self, rfl⟩,
        by decide, by decide⟩))

/-- The last of three messages is not found from its own position if the start has a
greater partition. -/
theorem last_message_hidden :
    (readEntriesFrom sampleTopic { (sampleId 2).toPosition with partition := 1 } 1
      threeMessages).1 = .ok [] ∧
    ¬ ReadExact sampleTopic { (sampleId 2).toPosition with partition := 1 } 1 threeMessages
      threeLog := by
  have nothing : (readEntriesFrom sampleTopic { (sampleId 2).toPosition with partition := 1 } 1
      threeMessages).1 = .ok [] := by decide
  refine ⟨nothing, ?_⟩
  rw [ReadExact, nothing]
  decide

end PulsarLite.Storage.RangeReads
