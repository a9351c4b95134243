import PulsarLite.Storage.Ledger

/-!
# The committed log

What the metadata of a ledger stands for: the messages committed so far, each at
its position, in the order of their positions. `Accounts` ties the two together.
It is kept by the two ways in which an append changes the metadata, placing an
item in the current ledger and rolling over to a ledger with a larger id.
-/

namespace PulsarLite.Storage

open List Keys ManagedLedgerPosition

abbrev CommittedLog := List (ManagedLedgerPosition × Item)

namespace StoredManagedLedgerInfo

def grownLedger (ledger : StoredLedgerInfo) (size : Nat) : StoredLedgerInfo :=
  { ledger with entries := ledger.entries + 1, size := ledger.size + size }

def addEntry (info : StoredManagedLedgerInfo) (size : Nat) : StoredManagedLedgerInfo :=
  info.modifyCurrentLedger fun ledger => grownLedger ledger size

variable {info : StoredManagedLedgerInfo}

section

variable (info : StoredManagedLedgerInfo)

@[simp] theorem current_add_entry (size : Nat) :
    (info.addEntry size).currentLedger = grownLedger info.currentLedger size := by
  simp [addEntry, modifyCurrentLedger, currentLedger]

@[simp] theorem current_roll_over (id : Nat) :
    (info.rollOverCurrentLedger id).currentLedger = .new id := by
  simp [rollOverCurrentLedger, currentLedger]

end

variable {ledger : StoredLedgerInfo}

theorem mem_add_entry {size : Nat} : ledger ∈ (info.addEntry size).ledgers ↔
      ledger ∈ info.ledgers.dropLast ∨ ledger = grownLedger info.currentLedger size := by
  simp [addEntry, modifyCurrentLedger]

variable {id : Nat}

theorem mem_roll_over : ledger ∈ (info.rollOverCurrentLedger id).ledgers ↔
      ledger ∈ info.ledgers ∨ ledger = .new id := by
  simp [rollOverCurrentLedger]

section

variable (ordered : info.Ordered)
include ordered

theorem Ordered.mem_split :
    ledger ∈ info.ledgers ↔ ledger ∈ info.ledgers.dropLast ∨ ledger = info.currentLedger := by
  conv_lhs => rw [ordered.split]
  simp

theorem Ordered.early_lt (early : ledger ∈ info.ledgers.dropLast)
    : ledger.ledgerId < info.currentLedger.ledgerId := by
  have increasing := ordered.increasing
  rw [ordered.split] at increasing
  exact (pairwise_append.mp increasing).2.2 ledger early _ (mem_singleton_self _)

theorem Ordered.add_entry (size : Nat) : (info.addEntry size).Ordered where
  nonempty := by simp [addEntry, modifyCurrentLedger]
  increasing := by
    have increasing := ordered.increasing
    rw [ordered.split, pairwise_append] at increasing
    simp only [addEntry, modifyCurrentLedger]
    rw [pairwise_append]
    refine ⟨increasing.1, pairwise_singleton _ _, ?_⟩
    intro ledger early last isLast
    rw [mem_singleton.mp isLast]
    exact ordered.early_lt early

theorem Ordered.roll_over (larger : info.currentLedger.ledgerId < id)
    : (info.rollOverCurrentLedger id).Ordered where
  nonempty := by simp [rollOverCurrentLedger]
  increasing := by
    simp only [rollOverCurrentLedger]
    rw [pairwise_append]
    refine ⟨ordered.increasing, pairwise_singleton _ _, ?_⟩
    intro ledger member last isLast
    rw [mem_singleton.mp isLast]
    obtain rfl | before := ordered.le_current member
    · exact larger
    · exact before.trans larger

theorem stores_add_entry (size pos) :
    (info.addEntry size).Stores pos ↔ info.Stores pos ∨ pos.slot = info.writeSlot := by
  have slotEq : pos.slot = info.writeSlot ↔ pos.ledgerId = info.currentLedger.ledgerId ∧
      pos.entryId = info.currentLedger.entries := by
    simp [slot, writeSlot]
  rw [slotEq]
  constructor
  · rintro ⟨ledger, member, id, bound⟩
    obtain early | rfl := mem_add_entry.mp member
    · exact .inl ⟨ledger, ordered.mem_split.mpr (.inl early), id, bound⟩
    · simp only [grownLedger] at id bound
      by_cases below : pos.entryId < info.currentLedger.entries
      · exact .inl ⟨info.currentLedger, ordered.current_member, id, below⟩
      · exact .inr ⟨id.symm, by omega⟩
  rintro (⟨ledger, member, id, bound⟩ | ⟨id, entry⟩)
  · obtain early | rfl := ordered.mem_split.mp member
    · exact ⟨ledger, mem_add_entry.mpr (.inl early), id, bound⟩
    · exact ⟨_, mem_add_entry.mpr (.inr rfl), id, Nat.lt_succ_of_lt bound⟩
  · exact ⟨_, mem_add_entry.mpr (.inr rfl), id.symm, by
      simp only [grownLedger]
      omega⟩

end

section

variable (info : StoredManagedLedgerInfo)

theorem stores_roll_over (id : Nat) (pos) :
    (info.rollOverCurrentLedger id).Stores pos ↔ info.Stores pos := by
  constructor
  · rintro ⟨ledger, member, same, bound⟩
    obtain old | rfl := mem_roll_over.mp member
    · exact ⟨ledger, old, same, bound⟩
    · simp [StoredLedgerInfo.new] at bound
  · rintro ⟨ledger, member, same, bound⟩
    exact ⟨ledger, mem_roll_over.mpr (.inl member), same, bound⟩

theorem write_slot_add_entry (size : Nat) : info.writeSlot < (info.addEntry size).writeSlot := by
  simp [writeSlot, grownLedger, Prod.Lex.toLex_lt_toLex]

end

theorem write_slot_roll_over (larger : info.currentLedger.ledgerId < id) :
    info.writeSlot < (info.rollOverCurrentLedger id).writeSlot := by
  simp [writeSlot, StoredLedgerInfo.new, Prod.Lex.toLex_lt_toLex, larger]

theorem knows_add_entry (ordered : info.Ordered) (size id : Nat) :
    (info.addEntry size).Knows id ↔ info.Knows id := by
  constructor
  · rintro ⟨ledger, member, same⟩
    obtain early | rfl := mem_add_entry.mp member
    · exact ⟨ledger, ordered.mem_split.mpr (.inl early), same⟩
    · exact ⟨info.currentLedger, ordered.current_member, same⟩
  · rintro ⟨ledger, member, same⟩
    obtain early | rfl := ordered.mem_split.mp member
    · exact ⟨ledger, mem_add_entry.mpr (.inl early), same⟩
    · exact ⟨_, mem_add_entry.mpr (.inr rfl), same⟩

theorem extends_add_entry (ordered : info.Ordered) (size : Nat) : Extends info
    (info.addEntry size) where
  keeps pos stores := (stores_add_entry ordered size pos).mpr (.inl stores)
  fresh pos stores := by
    obtain old | new := (stores_add_entry ordered size pos).mp stores
    · exact .inl old
    · exact .inr new.ge
  knows id known := (knows_add_entry ordered size id).mpr known
  newLedgers id known := .inl ((knows_add_entry ordered size id).mp known)
  advances := (write_slot_add_entry info size).le

theorem extends_roll_over (larger : info.currentLedger.ledgerId < id) :
    Extends info (info.rollOverCurrentLedger id) where
  keeps pos stores := (stores_roll_over info id pos).mpr stores
  fresh pos stores := .inl ((stores_roll_over info id pos).mp stores)
  knows other := by
    rintro ⟨ledger, member, same⟩
    exact ⟨ledger, mem_roll_over.mpr (.inl member), same⟩
  newLedgers other := by
    rintro ⟨ledger, member, same⟩
    obtain old | rfl := mem_roll_over.mp member
    · exact .inl ⟨ledger, old, same⟩
    · exact .inr (same ▸ larger)
  advances := (write_slot_roll_over larger).le

end StoredManagedLedgerInfo

section

open StoredManagedLedgerInfo RocksDBManagedLedger

def inLedger (log : CommittedLog) (ledgerId : Nat) : CommittedLog :=
  log.filter fun entry => decide (entry.1.ledgerId = ledgerId)

def bytesOf (log : CommittedLog) : Nat := (log.map fun entry => messageSize entry.2).sum

/-- The metadata describes exactly the messages of the log. -/
structure Accounts (info : StoredManagedLedgerInfo) (log : CommittedLog) : Prop where
  ordered : info.Ordered
  increasing : log.Pairwise fun left right => left.1.slot < right.1.slot
  partitions : ∀ entry ∈ log, entry.1.partition = entry.2.partition
  stores : ∀ pos, info.Stores pos ↔ ∃ entry ∈ log, entry.1.slot = pos.slot
  counts : ∀ ledger ∈ info.ledgers, ledger.entries = (inLedger log ledger.ledgerId).length ∧
    ledger.size = bytesOf (inLedger log ledger.ledgerId)

variable {info : StoredManagedLedgerInfo} {log : CommittedLog}

section

variable (accounts : Accounts info log) {entry : ManagedLedgerPosition × Item}
  (member : entry ∈ log)
include accounts member

theorem Accounts.stored : info.Stores entry.1 := (accounts.stores entry.1).mpr ⟨entry, member, rfl⟩

theorem Accounts.below : entry.1.slot < info.writeSlot :=
  accounts.ordered.slot_lt_write_slot (accounts.stored member)

end

theorem accounts_new (ledgerId : Nat) : Accounts (.new ledgerId) [] where
  ordered := {
    nonempty := by simp [StoredManagedLedgerInfo.new]
    increasing := pairwise_singleton _ _ }
  increasing := List.Pairwise.nil
  partitions := by simp
  stores pos := by simp [Stores, StoredManagedLedgerInfo.new, StoredLedgerInfo.new]
  counts ledger member := by
    rw [mem_singleton.mp member]
    exact ⟨rfl, rfl⟩

theorem in_ledger_concat (log) (entry : ManagedLedgerPosition × Item) (ledgerId : Nat) :
    inLedger (log ++ [entry]) ledgerId =
      inLedger log ledgerId ++ if entry.1.ledgerId = ledgerId then [entry] else [] := by
  by_cases here : entry.1.ledgerId = ledgerId
  · simp [inLedger, here]
  · simp [inLedger, here]

variable (accounts : Accounts info log)
include accounts

theorem Accounts.add_entry {pos} (item : Item)
    (place : pos.slot = info.writeSlot) (partition : pos.partition = item.partition) :
    Accounts (info.addEntry (messageSize item)) (log ++ [(pos, item)]) where
  ordered := accounts.ordered.add_entry _
  increasing := by
    rw [pairwise_append]
    refine ⟨accounts.increasing, pairwise_singleton _ _, ?_⟩
    intro entry member last isLast
    rw [mem_singleton.mp isLast, place]
    exact accounts.below member
  partitions entry member := by
    obtain old | new := mem_append.mp member
    · exact accounts.partitions entry old
    · rw [mem_singleton.mp new]
      exact partition
  stores other := by
    rw [stores_add_entry accounts.ordered, accounts.stores, ← place]
    constructor
    · rintro (⟨entry, member, same⟩ | same)
      · exact ⟨entry, mem_append_left _ member, same⟩
      · exact ⟨(pos, item), mem_append_right _ (mem_singleton_self _), same.symm⟩
    rintro ⟨entry, member, same⟩
    obtain old | new := mem_append.mp member
    · exact .inl ⟨entry, old, same⟩
    · rw [mem_singleton.mp new] at same
      exact .inr same.symm
  counts ledger member := by
    have ledgerEq : pos.ledgerId = info.currentLedger.ledgerId := by
      have := congrArg (fun slot => (ofLex slot).1) place
      exact this
    rw [in_ledger_concat]
    obtain early | rfl := mem_add_entry.mp member
    · have other : ¬ pos.ledgerId = ledger.ledgerId := by
        have := accounts.ordered.early_lt early
        omega
      rw [if_neg other, append_nil]
      exact accounts.counts ledger (accounts.ordered.mem_split.mpr (.inl early))
    · obtain ⟨entries, size⟩ := accounts.counts _ accounts.ordered.current_member
      simp [grownLedger, ledgerEq, entries, size, bytesOf]

theorem Accounts.roll_over {id : Nat} (larger : info.currentLedger.ledgerId < id) :
    Accounts (info.rollOverCurrentLedger id) log where
  ordered := accounts.ordered.roll_over larger
  increasing := accounts.increasing
  partitions := accounts.partitions
  stores pos := by rw [stores_roll_over, accounts.stores]
  counts ledger member := by
    obtain old | rfl := mem_roll_over.mp member
    · exact accounts.counts ledger old
    have empty : inLedger log (StoredLedgerInfo.new id).ledgerId = [] := by
      apply filter_eq_nil_iff.mpr
      intro entry entryMember
      obtain ⟨known, knownMember, same⟩ := (accounts.stored entryMember).knows
      have atMost : known.ledgerId ≤ info.currentLedger.ledgerId := by
        obtain rfl | before := accounts.ordered.le_current knownMember
        · exact le_refl _
        · exact before.le
      have different : entry.1.ledgerId ≠ id := by omega
      rw [Bool.not_eq_true]
      exact decide_eq_false different
    rw [empty]
    exact ⟨rfl, rfl⟩

theorem Accounts.entry_ids {ledger} (member : ledger ∈ info.ledgers) :
    (inLedger log ledger.ledgerId).map (fun entry => entry.1.entryId) =
      range ledger.entries := by
  have sorted : ((inLedger log ledger.ledgerId).map fun entry => entry.1.entryId).Pairwise
      (· < ·) := by
    rw [pairwise_map]
    apply (accounts.increasing.filter _).imp_of_mem
    intro left right leftMember rightMember before
    have leftId : left.1.ledgerId = ledger.ledgerId := by
      simpa using (mem_filter.mp leftMember).2
    have rightId : right.1.ledgerId = ledger.ledgerId := by
      simpa using (mem_filter.mp rightMember).2
    rw [slot_lt_iff] at before
    omega
  apply sorted.eq_of_mem_iff pairwise_lt_range
  intro entryId
  rw [mem_range]
  constructor
  · intro found
    obtain ⟨entry, entryMember, rfl⟩ := mem_map.mp found
    obtain ⟨inLog, here⟩ := mem_filter.mp entryMember
    obtain ⟨other, otherMember, id, bound⟩ := accounts.stored inLog
    have same : other = ledger := by
      apply accounts.ordered.unique otherMember member
      rw [id]
      simpa using here
    exact same ▸ bound
  · intro bound
    have stores : info.Stores ⟨ledger.ledgerId, entryId, 0⟩ := ⟨ledger, member, rfl, bound⟩
    obtain ⟨entry, entryMember, slot⟩ := (accounts.stores _).mp stores
    obtain ⟨ledgers, entries⟩ := (slot_eq_iff _ _).mp slot
    exact mem_map.mpr ⟨entry, mem_filter.mpr ⟨entryMember, by simpa using ledgers⟩, entries⟩

end

/-- The database after some allocations: only the allocator has moved, upwards. -/
structure AllocatorMoved (old new : Db) : Prop where
  frame : ∀ key, key ≠ ledgerIdAllocatorKey → new key = old key
  ahead : ∀ next, nextLedgerId old = .ok next →
    ∃ later, nextLedgerId new = .ok later ∧ next ≤ later

theorem AllocatorMoved.refl (db : Db) : AllocatorMoved db db where
  frame _ _ := rfl
  ahead next found := ⟨next, found, le_refl _⟩

theorem AllocatorMoved.trans {first second third : Db} (left : AllocatorMoved first second)
    (right : AllocatorMoved second third) : AllocatorMoved first third where
  frame key different := (right.frame key different).trans (left.frame key different)
  ahead next found := by
    obtain ⟨middle, middleFound, below⟩ := left.ahead next found
    obtain ⟨last, lastFound, above⟩ := right.ahead middle middleFound
    exact ⟨last, lastFound, below.trans above⟩

theorem next_ledger_id_frame {old new : Db}
    (same : new ledgerIdAllocatorKey = old ledgerIdAllocatorKey) :
    nextLedgerId new = nextLedgerId old := by
  unfold nextLedgerId
  rw [same]

variable {db after : Db}

theorem allocate_ledger_id_spec {id : Nat} (allocated : allocateLedgerId db = .ok (id, after)) :
    nextLedgerId db = .ok id ∧ nextLedgerId after = .ok (id + 1) ∧ AllocatorMoved db after := by
  unfold allocateLedgerId at allocated
  cases found : nextLedgerId db with
  | error error =>
    rw [found] at allocated
    simp [bind, Except.bind] at allocated
  | ok next =>
    rw [found] at allocated
    simp only [bind, Except.bind, pure, Except.pure, Except.ok.injEq, Prod.mk.injEq] at allocated
    obtain ⟨rfl, rfl⟩ := allocated
    have counted : nextLedgerId (db.put Keys.ledgerIdAllocatorKey (.nextLedgerId (next + 1))) =
        .ok (next + 1) := by
      simp [nextLedgerId]
    refine ⟨rfl, counted, ?_, ?_⟩
    · intro key different
      exact Db.put_of_ne different _ _
    · intro other otherFound
      rw [found] at otherFound
      cases otherFound
      exact ⟨next + 1, counted, Nat.le_succ _⟩

theorem other_allocations_moved (count : Nat) (db : Db) :
    AllocatorMoved db (otherAllocations count db) := by
  induction count generalizing db with
  | zero => exact .refl db
  | succ count ih =>
    unfold otherAllocations
    cases allocated : allocateLedgerId db with
    | error error => exact .refl db
    | ok pair => exact (allocate_ledger_id_spec allocated).2.2.trans (ih pair.2)

variable {event : AllocationEvent}

theorem allocate_error_moved {error : String} (failed : allocate event db = .error (error, after)) :
    AllocatorMoved db after := by
  have moved := other_allocations_moved event.others db
  have left : after = otherAllocations event.others db := by
    unfold allocate at failed
    generalize otherAllocations event.others db = prepared at failed ⊢
    cases fault : event.error with
    | some error =>
      simp only [fault, Except.error.injEq, Prod.mk.injEq] at failed
      exact failed.2.symm
    | none =>
      cases allocated : allocateLedgerId prepared with
      | error error =>
        simp only [fault, allocated, Except.error.injEq, Prod.mk.injEq] at failed
        exact failed.2.symm
      | ok pair => simp [fault, allocated] at failed
  rw [left]
  exact moved

theorem allocate_ok_moved {id : Nat} (answered : allocate event db = .ok (id, after)) :
    AllocatorMoved db after ∧ nextLedgerId after = .ok (id + 1) ∧
      ∀ next, nextLedgerId db = .ok next → next ≤ id := by
  have moved := other_allocations_moved event.others db
  have allocated : allocateLedgerId (otherAllocations event.others db) = .ok (id, after) := by
    unfold allocate at answered
    generalize otherAllocations event.others db = prepared at answered ⊢
    cases fault : event.error with
    | some error => simp [fault] at answered
    | none =>
      cases allocated : allocateLedgerId prepared with
      | error error => simp [fault, allocated] at answered
      | ok pair => simpa [fault, allocated] using answered
  obtain ⟨found, counted, later⟩ := allocate_ledger_id_spec allocated
  refine ⟨moved.trans later, counted, ?_⟩
  intro next nextFound
  obtain ⟨reached, reachedFound, below⟩ := moved.ahead next nextFound
  rw [found] at reachedFound
  cases reachedFound
  exact below

theorem allocate_ok_counted {id : Nat} (answered : allocate event db = .ok (id, after)) :
    ∃ next, nextLedgerId db = .ok next ∧ next ≤ id := by
  cases found : nextLedgerId db with
  | ok next => exact ⟨next, rfl, (allocate_ok_moved answered).2.2 next found⟩
  | error error =>
    have stuck : allocateLedgerId db = .error error := by
      simp [allocateLedgerId, found, bind, Except.bind]
    have others : otherAllocations event.others db = db := by
      cases event.others with
      | zero => rfl
      | succ count => simp [otherAllocations, stuck]
    cases fault : event.error <;> simp [allocate, others, stuck, fault] at answered

end PulsarLite.Storage
