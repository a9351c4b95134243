import Mathlib.Data.Finset.Card
import PulsarLite.Storage.Store

/-!
# Reads from two snapshots

A reader takes the last confirmed position first and the metadata later, when it
may have grown. Up to that position the two versions of the metadata describe the
same entries, and the walks over them agree until both have passed it. The walks
are bounded by the number of entries, so their results do not depend on the
fuel.
-/

namespace PulsarLite.Storage

open Finset ManagedLedgerPosition

variable {pos : ManagedLedgerPosition} {current : Option ManagedLedgerPosition}

namespace StoredManagedLedgerInfo

variable (info : StoredManagedLedgerInfo) {next : ManagedLedgerPosition}

def slots : Finset (Nat ×ₗ Nat) :=
  (info.ledgers.flatMap fun ledger =>
    (List.range ledger.entries).map fun entryId => toLex (ledger.ledgerId, entryId)).toFinset

def after (slot : Nat ×ₗ Nat) : Nat :=
  (info.slots.filter fun other => slot < other).card

variable {info : StoredManagedLedgerInfo}

theorem slot_mem_slots (pos) : pos.slot ∈ info.slots ↔ info.Stores pos := by
  simp only [slots, List.mem_toFinset, List.mem_flatMap, List.mem_map, List.mem_range]
  constructor
  · rintro ⟨ledger, member, entryId, bound, same⟩
    have parts := Prod.mk.inj (toLex.injective same)
    exact ⟨ledger, member, parts.1, parts.2 ▸ bound⟩
  · rintro ⟨ledger, member, id, bound⟩
    refine ⟨ledger, member, pos.entryId, bound, ?_⟩
    rw [id]
    rfl

theorem card_slots_le (info : StoredManagedLedgerInfo) : info.slots.card ≤ info.totalEntries := by
  apply le_trans (List.toFinset_card_le _)
  simp [totalEntries, List.length_flatMap]

theorem after_lt_after (stores : info.Stores next) (later : pos.slot < next.slot) :
    info.after next.slot < info.after pos.slot := by
  apply card_lt_card
  rw [ssubset_iff_of_subset]
  · refine ⟨next.slot, ?_, ?_⟩
    · exact mem_filter.mpr ⟨(slot_mem_slots next).mpr stores, later⟩
    · simp
  · intro slot member
    obtain ⟨inside, beyond⟩ := Finset.mem_filter.mp member
    exact Finset.mem_filter.mpr ⟨inside, later.trans beyond⟩

theorem after_lt_card (stores : info.Stores pos) : info.after pos.slot < info.slots.card := by
  apply card_lt_card
  rw [ssubset_iff_of_subset (filter_subset _ _)]
  refine ⟨pos.slot, (slot_mem_slots pos).mpr stores, ?_⟩
  simp

theorem Extends.card_slots_le {old new} (grown : Extends old new) :
    old.slots.card ≤ new.slots.card := by
  apply card_le_card
  intro slot member
  have stored : old.Stores ⟨(ofLex slot).1, (ofLex slot).2, 0⟩ := (slot_mem_slots _).mp member
  exact (slot_mem_slots ⟨(ofLex slot).1, (ofLex slot).2, 0⟩).mpr (grown.keeps _ stored)

theorem next_position_after (ordered : info.Ordered) (encodable : info.Encodable)
    (stores : info.Stores pos) (found : info.nextPosition pos = some next) :
    info.Stores next ∧ info.after next.slot < info.after pos.slot := by
  have word : pos.entryId + 1 < u64Modulus := by
    obtain ⟨ledger, member, _, bound⟩ := stores
    have small := (encodable ledger member).2.1
    have limit := i64_bound_lt
    omega
  obtain ⟨nextStores, _, later, _⟩ := next_position_some ordered word found
  exact ⟨nextStores, after_lt_after nextStores later⟩

/-- A bound for the passes of a walk from a position, which need not be stored. -/
def passes (info : StoredManagedLedgerInfo) : Option ManagedLedgerPosition → Nat
  | none => 0
  | some pos => if info.Stores pos then info.after pos.slot + 1 else info.slots.card + 1

theorem passes_next (ordered : info.Ordered) (encodable : info.Encodable) (pos) :
    info.passes (info.nextPosition pos) < info.passes (some pos) := by
  cases walked : info.nextPosition pos with
  | none =>
    simp only [passes]
    split_ifs <;> exact Nat.succ_pos _
  | some next =>
    have nextStores := (next_position_least ordered walked).1
    simp only [passes, if_pos nextStores]
    split_ifs with stores
    · have fewer := (next_position_after ordered encodable stores walked).2
      omega
    · have few := after_lt_card nextStores
      omega

end StoredManagedLedgerInfo

open StoredManagedLedgerInfo RocksDBManagedLedger RocksDbManagedLedgerStorage

def Passed (lac : ManagedLedgerPosition) (current : Option ManagedLedgerPosition) : Prop :=
  ∀ pos, current = some pos → lac.slot < pos.slot

/-- Two walks stand at the same position, or have both passed the last confirmed
one. -/
def Agree (lac : ManagedLedgerPosition) (left right : Option ManagedLedgerPosition) : Prop :=
  left = right ∨ Passed lac left ∧ Passed lac right

/-- Metadata that has grown since the last confirmed position was read. -/
structure Grown (lac : ManagedLedgerPosition) (old new : StoredManagedLedgerInfo) : Prop where
  oldOrdered : old.Ordered
  newOrdered : new.Ordered
  encodable : old.Encodable
  newEncodable : new.Encodable
  grown : old.Extends new
  below : lac.slot < old.writeSlot

variable {lac : ManagedLedgerPosition} {old new : StoredManagedLedgerInfo}

theorem passed_none (lac) : Passed lac none := by
  intro pos impossible
  cases impossible

theorem Passed.lac_lt (passed : Passed lac (some pos)) : lac < pos :=
  (lt_iff _ _).mpr (Or.inl (passed pos rfl))

section

variable (grown : Grown lac old new)
include grown

theorem Grown.next_position (pos) : Agree lac (old.nextPosition pos) (new.nextPosition pos) := by
  rcases grown.grown.next_position grown.oldOrdered grown.newOrdered pos with
    same | ⟨ended, beyond⟩
  · exact Or.inl same.symm
  right
  rw [ended]
  refine ⟨passed_none lac, ?_⟩
  intro next walked
  exact grown.below.trans_le (beyond next walked)

theorem Grown.first_candidate (state) :
    Agree lac (firstCandidate old state) (firstCandidate new state) := by
  unfold firstCandidate
  cases state.markDelete with
  | some mark => exact grown.next_position mark
  | none =>
    rcases grown.grown.first_position grown.oldOrdered grown.newOrdered (-1) with
      same | ⟨missing, beyond⟩
    · exact Or.inl same.symm
    right
    simp only [missing]
    refine ⟨passed_none lac, ?_⟩
    intro next found
    exact grown.below.trans_le (beyond next found)

theorem Grown.stores_iff (atMost : pos ≤ lac) : new.Stores pos ↔ old.Stores pos :=
  grown.grown.stores_iff ((slot_mono atMost).trans_lt grown.below)

theorem Grown.is_visible (pos) : isVisible pos new lac = isVisible pos old lac := by
  rw [Bool.eq_iff_iff, is_visible_iff, is_visible_iff]
  constructor
  · intro visible
    exact ⟨visible.1, (grown.stores_iff visible.1).mp visible.2⟩
  · intro visible
    exact ⟨visible.1, (grown.stores_iff visible.1).mpr visible.2⟩

end

theorem walk_unacked_passed {info state} (passed : Passed lac current) (fuel : Nat) :
    walkUnacked info lac state fuel current = none := by
  cases fuel with
  | zero => rfl
  | succ fuel =>
    cases current with
    | none => rfl
    | some pos => rw [walkUnacked, if_pos passed.lac_lt]

theorem Grown.walk_unacked (grown : Grown lac old new) (state) (bound oldFuel newFuel : Nat)
    (current other) (agree : Agree lac current other)
    (stored : ∀ pos, current = some pos → old.Stores pos ∧ old.after pos.slot < bound)
    (oldEnough : bound ≤ oldFuel) (newEnough : bound ≤ newFuel) :
    walkUnacked new lac state newFuel other = walkUnacked old lac state oldFuel current := by
  induction bound generalizing oldFuel newFuel current other with
  | zero =>
    have ended : Passed lac current := fun pos found =>
      absurd (stored pos found).2 (Nat.not_lt_zero _)
    have otherEnded : Passed lac other := by
      obtain same | passed := agree
      · exact same ▸ ended
      · exact passed.2
    rw [walk_unacked_passed ended, walk_unacked_passed otherEnded]
  | succ bound ih =>
    obtain rfl | ⟨ended, otherEnded⟩ := agree
    · cases current with
      | none => rw [walk_unacked_passed (passed_none lac), walk_unacked_passed (passed_none lac)]
      | some pos =>
        obtain ⟨oldFuel, rfl⟩ := Nat.exists_eq_add_of_le' oldEnough
        obtain ⟨newFuel, rfl⟩ := Nat.exists_eq_add_of_le' newEnough
        rw [← Nat.add_assoc, ← Nat.add_assoc, walkUnacked, walkUnacked]
        obtain ⟨stores, few⟩ := stored pos rfl
        split_ifs with beyond acknowledged
        · rfl
        · apply ih _ _ _ _ (grown.next_position pos)
          · intro next walked
            obtain ⟨nextStores, fewer⟩ :=
              next_position_after grown.oldOrdered grown.encodable stores walked
            exact ⟨nextStores, by omega⟩
          · omega
          · omega
        · rfl
    · rw [walk_unacked_passed ended, walk_unacked_passed otherEnded]

theorem Grown.first_unacked (grown : Grown lac old new) (state) :
    firstUnackedOf new lac state = firstUnackedOf old lac state := by
  have oldCard := card_slots_le old
  have newCard := grown.grown.card_slots_le.trans (card_slots_le new)
  apply grown.walk_unacked state old.slots.card _ _ _ _ (grown.first_candidate state)
  · intro pos found
    have stores : old.Stores pos := by
      unfold firstCandidate at found
      cases mark : state.markDelete with
      | some mark =>
        simp only [mark] at found
        exact (next_position_least grown.oldOrdered found).1
      | none =>
        simp only [mark] at found
        exact (first_position_some grown.oldOrdered found).1
    exact ⟨stores, after_lt_card stores⟩
  · omega
  · omega

variable {info : StoredManagedLedgerInfo} {db : Db} {entryLog : EntryLogStore} {limit : Nat}

theorem read_loop_passed (passed : Passed lac current) (fuel : Nat) (out) :
    readLoop db entryLog info lac limit fuel current out = .ok out := by
  cases fuel with
  | zero => rfl
  | succ fuel =>
    cases current with
    | none => rfl
    | some pos => rw [readLoop, if_pos (Or.inr passed.lac_lt)]

variable (ordered : info.Ordered) (encodable : info.Encodable)
include ordered encodable

theorem read_loop_fuel (bound fuel : Nat) (pos out)
    (stores : info.Stores pos) (few : info.after pos.slot < bound) (enough : bound ≤ fuel) :
    readLoop db entryLog info lac limit fuel (some pos) out =
      readLoop db entryLog info lac limit bound (some pos) out := by
  induction bound generalizing fuel pos out with
  | zero => exact absurd few (Nat.not_lt_zero _)
  | succ bound ih =>
    obtain ⟨more, rfl⟩ := Nat.exists_eq_add_of_le' enough
    have rest out : readLoop db entryLog info lac limit (more + bound) (info.nextPosition pos) out =
          readLoop db entryLog info lac limit bound (info.nextPosition pos) out := by
      cases walked : info.nextPosition pos with
      | none => rw [read_loop_passed (passed_none lac), read_loop_passed (passed_none lac)]
      | some next =>
        obtain ⟨nextStores, fewer⟩ := next_position_after ordered encodable stores walked
        exact ih _ next out nextStores (by omega) (by omega)
    rw [← Nat.add_assoc, readLoop, readLoop]
    simp only [rest]

theorem read_entries_fuel (start) (fuel : Nat) (enough : info.totalEntries + 2 ≤ fuel) :
    readLoop db entryLog info lac limit fuel (some start) [] =
      readLoop db entryLog info lac limit (info.totalEntries + 2) (some start) [] := by
  obtain ⟨more, rfl⟩ := Nat.exists_eq_add_of_le' enough
  have rest out : readLoop db entryLog info lac limit (more + (info.totalEntries + 1))
      (info.nextPosition start) out =
        readLoop db entryLog info lac limit (info.totalEntries + 1) (info.nextPosition start)
          out := by
    cases walked : info.nextPosition start with
    | none => rw [read_loop_passed (passed_none lac), read_loop_passed (passed_none lac)]
    | some next =>
      have stores := (next_position_least ordered walked).1
      have few := (after_lt_card stores).trans_le (card_slots_le info)
      exact read_loop_fuel ordered encodable _ _ next out stores (by omega) (by omega)
  have split : more + (info.totalEntries + 2) = (more + (info.totalEntries + 1)) + 1 := rfl
  rw [split, readLoop, readLoop]
  simp only [rest]

end PulsarLite.Storage
