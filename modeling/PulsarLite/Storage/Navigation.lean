import PulsarLite.Storage.Metadata

/-!
# Navigation over the stored log

The walk over the entries that a ledger's metadata describes. With increasing
ledger ids, `firstPosition`, `nextPosition` and `previousPosition` are the least
element, the successor and the predecessor among the stored entries, in the
order of slots. Metadata only ever grows at its end, which `Extends` records.
-/

namespace PulsarLite.Storage.StoredManagedLedgerInfo

open List StoredLedgerInfo Option
open ManagedLedgerPosition (ext_slot slot slot_eq_iff slot_le_iff slot_lt_iff)

variable {partition : Int} {pos previous : ManagedLedgerPosition} (info : StoredManagedLedgerInfo)
  {ledgers : List StoredLedgerInfo}

def firstPosition (partition : Int) : Option ManagedLedgerPosition :=
  (info.ledgers.find? fun ledger => decide (0 < ledger.entries)).map fun ledger =>
    { ledgerId := ledger.ledgerId, entryId := 0, partition := partition }

variable (position : ManagedLedgerPosition)

/-- The addition wraps, as in a release build. -/
def nextPosition : Option ManagedLedgerPosition :=
  match info.ledgers.find? fun ledger => decide (ledger.ledgerId = position.ledgerId) with
  | none => none
  | some currentLedger =>
    let nextEntryId := (position.entryId + 1) % u64Modulus
    if nextEntryId < currentLedger.entries then some { position with entryId := nextEntryId }
    else
      (info.ledgers.find? fun ledger =>
        decide (position.ledgerId < ledger.ledgerId ∧ 0 < ledger.entries)).map fun ledger =>
          { position with ledgerId := ledger.ledgerId, entryId := 0 }

/-- `max_by_key` on the ledger id: the last of the greatest elements. -/
def maxByLedgerId : List StoredLedgerInfo → Option StoredLedgerInfo
  | [] => none
  | ledger :: rest =>
    match maxByLedgerId rest with
    | none => some ledger
    | some best => if best.ledgerId < ledger.ledgerId then some ledger else some best

def previousPosition : Option ManagedLedgerPosition :=
  if 0 < position.entryId then some { position with entryId := position.entryId - 1 }
  else
    (maxByLedgerId (info.ledgers.filter fun ledger =>
      decide (ledger.ledgerId < position.ledgerId ∧ 0 < ledger.entries))).map fun ledger =>
        { position with ledgerId := ledger.ledgerId, entryId := ledger.entries - 1 }

def totalEntries : Nat :=
  (info.ledgers.map entries).sum

def Stores (pos : ManagedLedgerPosition) : Prop :=
  ∃ ledger ∈ info.ledgers, ledger.ledgerId = pos.ledgerId ∧ pos.entryId < ledger.entries

def Knows (ledgerId : Nat) : Prop :=
  ∃ ledger ∈ info.ledgers, ledger.ledgerId = ledgerId

def writeSlot : Nat ×ₗ Nat :=
  toLex (info.currentLedger.ledgerId, info.currentLedger.entries)

structure Ordered (info : StoredManagedLedgerInfo) : Prop where
  nonempty : info.ledgers ≠ []
  increasing : info.ledgers.Pairwise fun left right => left.ledgerId < right.ledgerId

instance (info : StoredManagedLedgerInfo) (pos : ManagedLedgerPosition) :
    Decidable (info.Stores pos) :=
  inferInstanceAs (Decidable (∃ ledger ∈ info.ledgers, _))

variable {info : StoredManagedLedgerInfo}

theorem Stores.knows (stores : info.Stores pos) : info.Knows pos.ledgerId := by
  obtain ⟨ledger, member, same, _⟩ := stores
  exact ⟨ledger, member, same⟩

theorem Stores.of_slot {left right} (stores : info.Stores left) (same : left.slot = right.slot) :
    info.Stores right := by
  obtain ⟨ledgers, entries⟩ := (slot_eq_iff left right).mp same
  obtain ⟨ledger, member, id, bound⟩ := stores
  exact ⟨ledger, member, id.trans ledgers, entries ▸ bound⟩

section

variable (ordered : info.Ordered)
include ordered

theorem Ordered.unique {left right} (leftMember : left ∈ info.ledgers)
    (rightMember : right ∈ info.ledgers) (same : left.ledgerId = right.ledgerId) :
    left = right := by
  have distinct : (info.ledgers.map ledgerId).Nodup := by
    rw [nodup_iff_pairwise_ne, pairwise_map]
    exact ordered.increasing.imp fun before => before.ne
  exact inj_on_of_nodup_map distinct leftMember rightMember same

theorem Ordered.find_least {property : StoredLedgerInfo → Bool} {found}
    (search : info.ledgers.find? property = some found) :
    found ∈ info.ledgers ∧ property found = true ∧
      ∀ ledger ∈ info.ledgers, property ledger = true → found.ledgerId ≤ ledger.ledgerId := by
  obtain ⟨holds, before, after, split, earlier⟩ := List.find?_eq_some_iff_append.mp search
  refine ⟨mem_of_find?_eq_some search, holds, ?_⟩
  intro ledger member ledgerHolds
  have increasing := ordered.increasing
  rw [split] at increasing member
  obtain early | later := mem_append.mp member
  · exact absurd ledgerHolds (by simpa using earlier ledger early)
  · obtain rfl | later := mem_cons.mp later
    · exact le_refl _
    · have tail := (pairwise_append.mp increasing).2.1
      exact (rel_of_pairwise_cons tail later).le

theorem Ordered.current_member : info.currentLedger ∈ info.ledgers := by
  unfold currentLedger
  rw [getLastD_eq_getLast?, getLast?_eq_some_getLast ordered.nonempty]
  exact getLast_mem ordered.nonempty

theorem Ordered.split : info.ledgers = info.ledgers.dropLast ++ [info.currentLedger] := by
  have last : info.currentLedger = info.ledgers.getLast ordered.nonempty := by
    unfold currentLedger
    rw [getLastD_eq_getLast?, getLast?_eq_some_getLast ordered.nonempty]
    rfl
  rw [last, dropLast_append_getLast]

theorem Ordered.le_current {ledger} (member : ledger ∈ info.ledgers) :
    ledger = info.currentLedger ∨ ledger.ledgerId < info.currentLedger.ledgerId := by
  have increasing := ordered.increasing
  rw [ordered.split] at increasing member
  obtain early | last := mem_append.mp member
  · exact .inr ((pairwise_append.mp increasing).2.2 ledger early _ (mem_singleton_self _))
  · exact .inl (mem_singleton.mp last)

theorem Ordered.slot_lt_write_slot (stores : info.Stores pos) : pos.slot < info.writeSlot := by
  obtain ⟨ledger, member, id, bound⟩ := stores
  unfold slot writeSlot
  rw [Prod.Lex.toLex_lt_toLex]
  obtain rfl | before := ordered.le_current member
  · exact .inr ⟨id.symm, bound⟩
  · exact .inl (id ▸ before)

theorem first_position_some {first} (found : info.firstPosition partition = some first) :
    info.Stores first ∧ first.partition = partition ∧
      ∀ pos, info.Stores pos → first.slot ≤ pos.slot := by
  obtain ⟨ledger, search, rfl⟩ := map_eq_some_iff.mp found
  obtain ⟨member, holds, least⟩ := ordered.find_least search
  refine ⟨⟨ledger, member, rfl, by simpa using holds⟩, rfl, ?_⟩
  rintro pos ⟨other, otherMember, id, bound⟩
  have below := least other otherMember (by simpa using Nat.zero_lt_of_lt bound)
  rw [slot_le_iff]
  simp only
  omega

end

theorem first_position_none (missing : info.firstPosition partition = none) (pos) :
    ¬ info.Stores pos := by
  rintro ⟨ledger, member, _, bound⟩
  unfold firstPosition at missing
  rw [map_eq_none_iff, List.find?_eq_none] at missing
  exact missing ledger member (by simpa using Nat.zero_lt_of_lt bound)

def walkSlot (pos : ManagedLedgerPosition) : Nat ×ₗ Nat :=
  toLex (pos.ledgerId, (pos.entryId + 1) % u64Modulus)

theorem walk_slot_le_iff (pos other : ManagedLedgerPosition) :
    walkSlot pos ≤ other.slot ↔ pos.ledgerId < other.ledgerId ∨
      pos.ledgerId = other.ledgerId ∧ (pos.entryId + 1) % u64Modulus ≤ other.entryId := by
  simp [walkSlot, slot, Prod.Lex.toLex_le_toLex]

theorem walk_slot_le_of_word (word : pos.entryId + 1 < u64Modulus) (other : ManagedLedgerPosition)
    : walkSlot pos ≤ other.slot ↔ pos.slot < other.slot := by
  rw [walk_slot_le_iff, slot_lt_iff, Nat.mod_eq_of_lt word]
  omega

section

variable (ordered : info.Ordered) {next : ManagedLedgerPosition}
include ordered

theorem next_position_least (found : info.nextPosition pos = some next) :
    info.Stores next ∧ next.partition = pos.partition ∧ walkSlot pos ≤ next.slot ∧
      ∀ other, info.Stores other → walkSlot pos ≤ other.slot → next.slot ≤ other.slot := by
  unfold nextPosition at found
  cases search : info.ledgers.find? fun ledger => decide (ledger.ledgerId = pos.ledgerId) with
  | none => simp [search] at found
  | some current =>
    obtain ⟨member, holds, _⟩ := ordered.find_least search
    have currentId : current.ledgerId = pos.ledgerId := by simpa using holds
    simp only [search] at found
    split_ifs at found with inside
    · rw [← some.inj found]
      refine ⟨⟨current, member, currentId, inside⟩, rfl, le_refl _, ?_⟩
      intro other _ later
      exact later
    obtain ⟨ledger, laterSearch, rfl⟩ := map_eq_some_iff.mp found
    obtain ⟨laterMember, laterHolds, least⟩ := ordered.find_least laterSearch
    have later : pos.ledgerId < ledger.ledgerId ∧ 0 < ledger.entries := by
      simpa using laterHolds
    refine ⟨⟨ledger, laterMember, rfl, later.2⟩, rfl, ?_, ?_⟩
    · rw [walk_slot_le_iff]
      exact .inl later.1
    rintro other ⟨otherLedger, otherMember, otherId, bound⟩ after
    rw [walk_slot_le_iff] at after
    have different : otherLedger.ledgerId ≠ pos.ledgerId := by
      intro same
      have equal := ordered.unique otherMember member (same.trans currentId.symm)
      rw [equal] at bound
      omega
    have beyond : pos.ledgerId < otherLedger.ledgerId := by omega
    have below := least otherLedger otherMember (by
      simpa using And.intro beyond (Nat.zero_lt_of_lt bound))
    rw [slot_le_iff]
    simp only
    omega

theorem next_position_end (known : info.Knows pos.ledgerId) (missing : info.nextPosition pos = none)
    (other) (stores : info.Stores other) : other.slot < walkSlot pos := by
  rw [← not_le, walk_slot_le_iff]
  unfold nextPosition at missing
  cases search : info.ledgers.find? fun ledger => decide (ledger.ledgerId = pos.ledgerId) with
  | none =>
    obtain ⟨ledger, member, id⟩ := known
    rw [List.find?_eq_none] at search
    exact absurd id (by simpa using search ledger member)
  | some current =>
    obtain ⟨member, holds, _⟩ := ordered.find_least search
    have currentId : current.ledgerId = pos.ledgerId := by simpa using holds
    simp only [search] at missing
    split_ifs at missing with inside
    rw [map_eq_none_iff, List.find?_eq_none] at missing
    obtain ⟨ledger, ledgerMember, id, bound⟩ := stores
    have noLater : ¬ pos.ledgerId < ledger.ledgerId := by
      intro later
      exact missing ledger ledgerMember (by
        simpa using And.intro later (Nat.zero_lt_of_lt bound))
    by_cases same : ledger.ledgerId = pos.ledgerId
    · have equal := ordered.unique ledgerMember member (same.trans currentId.symm)
      rw [equal] at bound
      omega
    · omega

theorem next_position_some (word : pos.entryId + 1 < u64Modulus)
    (found : info.nextPosition pos = some next) :
    info.Stores next ∧ next.partition = pos.partition ∧ pos.slot < next.slot ∧
      ∀ other, info.Stores other → pos.slot < other.slot → next.slot ≤ other.slot := by
  have spec := next_position_least ordered found
  simp only [walk_slot_le_of_word word] at spec
  exact spec

theorem next_position_none (word : pos.entryId + 1 < u64Modulus) (known : info.Knows pos.ledgerId)
    (missing : info.nextPosition pos = none) (other) (stores : info.Stores other) :
    other.slot ≤ pos.slot := by
  have before := next_position_end ordered known missing other stores
  rw [← not_lt, ← walk_slot_le_of_word word]
  exact not_le.mpr before

end

theorem next_position_unknown (unknown : ¬ info.Knows pos.ledgerId) :
    info.nextPosition pos = none := by
  have missing : info.ledgers.find? (fun ledger => decide (ledger.ledgerId = pos.ledgerId)) =
      none := by
    rw [List.find?_eq_none]
    intro ledger member
    simpa using fun same => unknown ⟨ledger, member, same⟩
  rw [nextPosition, missing]

theorem max_by_ledger_id_none (missing : maxByLedgerId ledgers = none) :
    ledgers = [] := by
  cases ledgers with
  | nil => rfl
  | cons first rest =>
    unfold maxByLedgerId at missing
    cases search : maxByLedgerId rest <;> simp only [search] at missing
    · simp at missing
    · split_ifs at missing

theorem max_by_ledger_id_some {best} (found : maxByLedgerId ledgers = some best) :
    best ∈ ledgers ∧ ∀ ledger ∈ ledgers, ledger.ledgerId ≤ best.ledgerId := by
  induction ledgers generalizing best with
  | nil => simp [maxByLedgerId] at found
  | cons first rest ih =>
    unfold maxByLedgerId at found
    cases search : maxByLedgerId rest with
    | none =>
      simp only [search, some.injEq] at found
      subst found
      simp [max_by_ledger_id_none search]
    | some other =>
      obtain ⟨member, greatest⟩ := ih search
      simp only [search] at found
      split_ifs at found with smaller
      · rw [← some.inj found]
        refine ⟨mem_cons_self, ?_⟩
        intro ledger ledgerMember
        obtain rfl | later := mem_cons.mp ledgerMember
        · exact le_refl _
        · exact (greatest ledger later).trans smaller.le
      rw [← some.inj found]
      refine ⟨mem_cons_of_mem _ member, ?_⟩
      intro ledger ledgerMember
      obtain rfl | later := mem_cons.mp ledgerMember
      · exact not_lt.mp smaller
      · exact greatest ledger later

/-- The previous position splits the stored entries at the given one, which need
be neither stored nor in a known ledger. -/
theorem previous_position_some (ordered : info.Ordered)
    (found : info.previousPosition pos = some previous) :
    previous.partition = pos.partition ∧ previous.slot < pos.slot ∧
      ∀ other, info.Stores other → (other.slot ≤ previous.slot ↔ other.slot < pos.slot) := by
  unfold previousPosition at found
  split_ifs at found with inside
  · rw [← some.inj found]
    refine ⟨rfl, ?_, ?_⟩
    · rw [slot_lt_iff]
      exact .inr ⟨rfl, Nat.sub_lt inside Nat.zero_lt_one⟩
    · intro other _
      rw [slot_le_iff, slot_lt_iff]
      simp only
      omega
  obtain ⟨ledger, search, rfl⟩ := map_eq_some_iff.mp found
  obtain ⟨member, greatest⟩ := max_by_ledger_id_some search
  obtain ⟨ledgerMember, holds⟩ := mem_filter.mp member
  have before : ledger.ledgerId < pos.ledgerId ∧ 0 < ledger.entries := by simpa using holds
  have lower : ({ pos with ledgerId := ledger.ledgerId, entryId := ledger.entries - 1 } :
      ManagedLedgerPosition).slot < pos.slot := by
    rw [slot_lt_iff]
    exact .inl before.1
  refine ⟨rfl, lower, ?_⟩
  rintro other ⟨otherLedger, otherMember, id, bound⟩
  constructor
  · intro below
    exact below.trans_lt lower
  intro below
  rw [slot_lt_iff] at below
  have otherBefore : otherLedger.ledgerId < pos.ledgerId := by omega
  have atMost := greatest otherLedger (mem_filter.mpr ⟨otherMember, by
    simpa using And.intro otherBefore (Nat.zero_lt_of_lt bound)⟩)
  rw [slot_le_iff]
  simp only
  by_cases same : otherLedger.ledgerId = ledger.ledgerId
  · have equal := ordered.unique otherMember ledgerMember same
    rw [equal] at bound
    omega
  · omega

theorem previous_position_zero_stores (zero : pos.entryId = 0)
    (found : info.previousPosition pos = some previous) :
    info.Stores previous := by
  unfold previousPosition at found
  rw [if_neg (by omega)] at found
  obtain ⟨ledger, search, rfl⟩ := map_eq_some_iff.mp found
  obtain ⟨member, holds⟩ := mem_filter.mp (max_by_ledger_id_some search).1
  have before : ledger.ledgerId < pos.ledgerId ∧ 0 < ledger.entries := by simpa using holds
  exact ⟨ledger, member, rfl, Nat.sub_lt before.2 Nat.zero_lt_one⟩

theorem previous_position_stores (stores : info.Stores pos)
    (found : info.previousPosition pos = some previous) : info.Stores previous := by
  by_cases zero : pos.entryId = 0
  · exact previous_position_zero_stores zero found
  unfold previousPosition at found
  rw [if_pos (Nat.pos_of_ne_zero zero)] at found
  rw [← some.inj found]
  obtain ⟨ledger, member, id, bound⟩ := stores
  exact ⟨ledger, member, id, (Nat.sub_le _ _).trans_lt bound⟩

theorem previous_position_none (missing : info.previousPosition pos = none) :
    pos.entryId = 0 ∧ ∀ other, info.Stores other → pos.slot ≤ other.slot := by
  unfold previousPosition at missing
  split_ifs at missing with inside
  have entry : pos.entryId = 0 := by omega
  refine ⟨entry, ?_⟩
  rintro other ⟨ledger, member, id, bound⟩
  rw [map_eq_none_iff] at missing
  have empty := max_by_ledger_id_none missing
  have notBefore : ¬ ledger.ledgerId < pos.ledgerId := by
    intro before
    have kept : ledger ∈ info.ledgers.filter fun ledger =>
        decide (ledger.ledgerId < pos.ledgerId ∧ 0 < ledger.entries) :=
      mem_filter.mpr ⟨member, by simpa using And.intro before (Nat.zero_lt_of_lt bound)⟩
    rw [empty] at kept
    simp at kept
  rw [slot_le_iff]
  omega

/-- Growth at the end of the log: what was stored stays stored, and every new
entry comes at or after the slot that was written next. -/
structure Extends (old new : StoredManagedLedgerInfo) : Prop where
  keeps : ∀ pos, old.Stores pos → new.Stores pos
  fresh : ∀ pos, new.Stores pos → old.Stores pos ∨ old.writeSlot ≤ pos.slot
  knows : ∀ id, old.Knows id → new.Knows id
  newLedgers : ∀ id, new.Knows id → old.Knows id ∨ old.currentLedger.ledgerId < id
  advances : old.writeSlot ≤ new.writeSlot

theorem Extends.refl (info) : Extends info info where
  keeps _ stores := stores
  fresh _ stores := .inl stores
  knows _ known := known
  newLedgers _ known := .inl known
  advances := le_refl _

theorem Extends.trans {first second third} (left : Extends first second)
    (right : Extends second third) : Extends first third where
  keeps pos stores := right.keeps pos (left.keeps pos stores)
  fresh pos stores := by
    obtain old | new := right.fresh pos stores
    · exact left.fresh pos old
    · exact .inr (left.advances.trans new)
  knows id known := right.knows id (left.knows id known)
  newLedgers id known := by
    obtain old | new := right.newLedgers id known
    · exact left.newLedgers id old
    · have advances := Prod.Lex.monotone_fst _ _ left.advances
      exact .inr (lt_of_le_of_lt advances new)
  advances := left.advances.trans right.advances

variable {old new : StoredManagedLedgerInfo}

theorem Extends.stores_iff (grown : Extends old new) (below : pos.slot < old.writeSlot) :
    new.Stores pos ↔ old.Stores pos := by
  constructor
  · intro stores
    obtain known | beyond := grown.fresh pos stores
    · exact known
    · exact absurd below (not_lt.mpr beyond)
  · exact grown.keeps pos

variable (grown : Extends old new) (oldOrdered : old.Ordered) (newOrdered : new.Ordered)
include grown oldOrdered newOrdered

/-- The walk takes the same step over the longer log, unless it was at the end:
then it goes on to a new entry. -/
theorem Extends.next_position (pos) : new.nextPosition pos = old.nextPosition pos ∨
      old.nextPosition pos = none ∧ ∀ next, new.nextPosition pos = some next →
        old.writeSlot ≤ next.slot := by
  by_cases known : old.Knows pos.ledgerId
  · cases oldWalk : old.nextPosition pos with
    | none =>
      right
      refine ⟨rfl, ?_⟩
      intro next walked
      obtain ⟨stores, _, after, _⟩ := next_position_least newOrdered walked
      obtain old | fresh := grown.fresh next stores
      · exact absurd (next_position_end oldOrdered known oldWalk next old) (not_lt.mpr after)
      · exact fresh
    | some oldNext =>
      left
      obtain ⟨oldStores, oldPartition, oldAfter, oldLeast⟩ := next_position_least oldOrdered oldWalk
      cases walk : new.nextPosition pos with
      | none =>
        have before := next_position_end newOrdered (grown.knows _ known) walk oldNext
          (grown.keeps _ oldStores)
        exact absurd before (not_lt.mpr oldAfter)
      | some next =>
        obtain ⟨stores, partition, after, least⟩ := next_position_least newOrdered walk
        have atMost := least oldNext (grown.keeps _ oldStores) oldAfter
        have storedBefore := (grown.stores_iff
          (atMost.trans_lt (oldOrdered.slot_lt_write_slot oldStores))).mp stores
        have slots := le_antisymm atMost (oldLeast next storedBefore after)
        rw [ext_slot slots (partition.trans oldPartition.symm)]
  · right
    refine ⟨next_position_unknown known, ?_⟩
    intro next walked
    have newKnown : new.Knows pos.ledgerId := by
      by_contra unknown
      rw [next_position_unknown unknown] at walked
      cases walked
    have beyond : old.currentLedger.ledgerId < pos.ledgerId :=
      (grown.newLedgers _ newKnown).resolve_left known
    have after := (next_position_least newOrdered walked).2.2.1
    refine le_trans (le_of_lt ?_) after
    unfold writeSlot walkSlot
    rw [Prod.Lex.toLex_lt_toLex]
    exact .inl beyond

theorem Extends.first_position (partition : Int) :
    new.firstPosition partition = old.firstPosition partition ∨
      old.firstPosition partition = none ∧ ∀ first, new.firstPosition partition = some first →
        old.writeSlot ≤ first.slot := by
  cases oldFound : old.firstPosition partition with
  | none =>
    right
    refine ⟨rfl, ?_⟩
    intro first found
    obtain known | fresh := grown.fresh first (first_position_some newOrdered found).1
    · exact absurd known (first_position_none oldFound first)
    · exact fresh
  | some oldFirst =>
    left
    obtain ⟨oldStores, oldPartition, oldLeast⟩ := first_position_some oldOrdered oldFound
    cases found : new.firstPosition partition with
    | none => exact absurd (grown.keeps _ oldStores) (first_position_none found oldFirst)
    | some first =>
      obtain ⟨stores, samePartition, least⟩ := first_position_some newOrdered found
      have atMost := least oldFirst (grown.keeps _ oldStores)
      have storedBefore := (grown.stores_iff
        (atMost.trans_lt (oldOrdered.slot_lt_write_slot oldStores))).mp stores
      have slots := le_antisymm atMost (oldLeast first storedBefore)
      rw [ext_slot slots (samePartition.trans oldPartition.symm)]

end PulsarLite.Storage.StoredManagedLedgerInfo
