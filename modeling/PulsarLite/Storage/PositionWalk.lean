import Mathlib.Data.Set.Finite.Basic
import Mathlib.Logic.Function.Iterate
import PulsarLite.Storage.SnapshotReads

/-!
# The walk over the stored positions

Forward from the first position the walk visits every stored position once and ends.
The step back does not look at the ledger it stays in, so that it leads to positions
that are not stored if it starts outside the log.
-/

namespace PulsarLite.Storage.StoredManagedLedgerInfo
open ManagedLedgerPosition (ext_slot slot_lt_iff slot_le_iff)

variable {turns : Nat}

def walk (info : StoredManagedLedgerInfo) (partition : Int) (turns : Nat) :
    Option ManagedLedgerPosition :=
  (fun current => current.bind info.nextPosition)^[turns] (info.firstPosition partition)

variable {info : StoredManagedLedgerInfo} {pos next previous : ManagedLedgerPosition}
  {partition : Int}

theorem walk_succ (turns : Nat) :
    info.walk partition (turns + 1) = (info.walk partition turns).bind info.nextPosition :=
  Function.iterate_succ_apply' _ _ _

variable (ordered : info.Ordered) (words : ∀ ledger ∈ info.ledgers, ledger.entries < u64Modulus)
include words

theorem Stores.word (stores : info.Stores pos) : pos.entryId + 1 < u64Modulus := by
  obtain ⟨ledger, member, _, bound⟩ := stores
  exact (Nat.succ_le_of_lt bound).trans_lt (words ledger member)

include ordered

section

variable (stores : info.Stores pos)
include stores

theorem previous_next (found : info.nextPosition pos = some next) :
    info.previousPosition next = some pos := by
  obtain ⟨nextStores, same, after, least⟩ := next_position_some ordered (stores.word words) found
  cases back : info.previousPosition next with
  | none => exact absurd ((previous_position_none back).2 pos stores) (not_le.mpr after)
  | some previous =>
    obtain ⟨samePartition, before, splits⟩ := previous_position_some ordered back
    have stored := previous_position_stores nextStores back
    have atMost : previous.slot ≤ pos.slot :=
      not_lt.mp fun later => absurd (least previous stored later) (not_le.mpr before)
    rw [ext_slot (atMost.antisymm ((splits pos stores).mpr after)) (samePartition.trans same)]

theorem next_previous (found : info.previousPosition pos = some previous) :
    info.nextPosition previous = some pos := by
  obtain ⟨same, before, splits⟩ := previous_position_some ordered found
  have stored := previous_position_stores stores found
  cases forth : info.nextPosition previous with
  | none =>
    have last := next_position_none ordered (stored.word words) stored.knows forth pos stores
    exact absurd last (not_le.mpr before)
  | some next =>
    obtain ⟨nextStores, samePartition, after, least⟩ :=
      next_position_some ordered (stored.word words) forth
    have atLeast : pos.slot ≤ next.slot :=
      not_lt.mp fun early => absurd ((splits next nextStores).mpr early) (not_le.mpr after)
    rw [ext_slot ((least pos stores before).antisymm atLeast) (samePartition.trans same)]

/-- By induction on the slots: what comes before a stored position is visited before it. -/
theorem walk_visits : ∃ turns, info.walk pos.partition turns = some pos := by
  induction isSlot : pos.slot using WellFoundedLT.induction generalizing pos with
  | ind slot ih =>
    cases found : info.previousPosition pos with
    | none =>
      have first := (previous_position_none found).2
      cases start : info.firstPosition pos.partition with
      | none => exact absurd stores (first_position_none start pos)
      | some least =>
        obtain ⟨storesLeast, same, below⟩ := first_position_some ordered start
        rw [ext_slot ((below pos stores).antisymm (first least storesLeast)) same] at start
        exact ⟨0, start⟩
    | some previous =>
      obtain ⟨same, before, _⟩ := previous_position_some ordered found
      obtain ⟨turns, visited⟩ :=
        ih previous.slot (isSlot ▸ before) (previous_position_stores stores found) rfl
      rw [same] at visited
      refine ⟨turns + 1, ?_⟩
      rw [walk_succ, visited]
      exact next_previous ordered words stores found

end

omit words in
theorem walk_stores (visited : info.walk partition turns = some pos) :
    info.Stores pos ∧ pos.partition = partition := by
  induction turns generalizing pos with
  | zero =>
    obtain ⟨stores, same, _⟩ := first_position_some ordered visited
    exact ⟨stores, same⟩
  | succ turns ih =>
    rw [walk_succ] at visited
    obtain ⟨before, earlier, found⟩ := Option.bind_eq_some_iff.mp visited
    obtain ⟨stores, same, _⟩ := next_position_least ordered found
    exact ⟨stores, same.trans (ih earlier).2⟩

theorem walk_increases (visited : info.walk partition turns = some pos)
    (later : info.walk partition (turns + 1) = some next) : pos.slot < next.slot := by
  rw [walk_succ, visited] at later
  have stores := (walk_stores ordered visited).1
  exact (next_position_some ordered (stores.word words) later).2.2.1

theorem walk_ends (partition : Int) : ∃ turns, info.walk partition turns = none := by
  by_contra endless
  have visits turns : ∃ pos, info.walk partition turns = some pos :=
    Option.ne_none_iff_exists'.mp fun ended => endless ⟨turns, ended⟩
  choose visited isVisited using visits
  have increasing : StrictMono fun turns => (visited turns).slot :=
    strictMono_nat_of_lt_succ fun turns =>
      walk_increases ordered words (isVisited turns) (isVisited (turns + 1))
  have stored turns : (visited turns).slot ∈ info.slots :=
    (slot_mem_slots _).mpr (walk_stores ordered (isVisited turns)).1
  exact Set.infinite_of_injective_forall_mem increasing.injective stored info.slots.finite_toSet

omit ordered words

theorem previous_stores_iff (found : info.previousPosition pos = some previous) :
    info.Stores previous ↔ pos.entryId = 0 ∨
      ∃ ledger ∈ info.ledgers, ledger.ledgerId = pos.ledgerId ∧ pos.entryId ≤ ledger.entries := by
  by_cases zero : pos.entryId = 0
  · exact iff_of_true (previous_position_zero_stores zero found) (.inl zero)
  · unfold previousPosition at found
    rw [if_pos (Nat.pos_of_ne_zero zero)] at found
    rw [← Option.some.inj found, or_iff_right zero]
    refine exists_congr fun ledger => and_congr_right fun _ => and_congr_right fun _ => ?_
    change pos.entryId - 1 < ledger.entries ↔ _
    omega

theorem next_after_iff (ordered : info.Ordered) (word : pos.entryId < u64Modulus)
    (found : info.nextPosition pos = some next) :
    pos.slot < next.slot ↔ pos.entryId + 1 < u64Modulus ∨
      ∀ ledger ∈ info.ledgers, ledger.ledgerId = pos.ledgerId → ledger.entries = 0 := by
  by_cases fits : pos.entryId + 1 < u64Modulus
  · exact iff_of_true (next_position_some ordered fits found).2.2.1 (.inl fits)
  -- The successor of the last entry id is the first entry of the same ledger.
  have wraps : (pos.entryId + 1) % u64Modulus = 0 := by
    have last : pos.entryId + 1 = u64Modulus := by omega
    rw [last, Nat.mod_self]
  obtain ⟨⟨reached, isReached, sameId, inside⟩, _, beyond, least⟩ :=
    next_position_least ordered found
  simp only [walk_slot_le_iff, wraps] at beyond least
  rw [slot_lt_iff, or_iff_right fits]
  constructor
  · intro after ledger member same
    by_contra stored
    have first := least ⟨pos.ledgerId, 0, pos.partition⟩
      ⟨ledger, member, same, Nat.pos_of_ne_zero stored⟩ (.inr ⟨rfl, le_rfl⟩)
    rw [slot_le_iff] at first
    dsimp only at first
    omega
  · intro empty
    refine .inl (beyond.resolve_right fun same => ?_)
    have nothing := empty reached isReached (sameId.trans same.1.symm)
    omega

/-- The walk visits exactly the stored positions, in their order, and ends; and its steps
are undone by those back. A step forward leads to a later position, except from the last
entry id of a ledger with entries. A step back leads to a stored position from the first entry of
any ledger, and from the entries of a ledger of the log and right behind them. -/
theorem navigation_exact_iff (info : StoredManagedLedgerInfo)
    (increasing : info.ledgers.Pairwise fun left right => left.ledgerId < right.ledgerId)
    (words : ∀ ledger ∈ info.ledgers, ledger.entries < u64Modulus) :
    (∀ partition pos, (∃ turns, info.walk partition turns = some pos) ↔
      info.Stores pos ∧ pos.partition = partition) ∧
    (∀ partition turns pos next, info.walk partition turns = some pos →
      info.walk partition (turns + 1) = some next → pos.slot < next.slot) ∧
    (∀ partition, ∃ turns, info.walk partition turns = none) ∧
    (∀ pos next, info.Stores pos → info.nextPosition pos = some next →
      info.previousPosition next = some pos) ∧
    (∀ pos previous, info.Stores pos → info.previousPosition pos = some previous →
      info.nextPosition previous = some pos) ∧
    (∀ pos next, pos.entryId < u64Modulus → info.nextPosition pos = some next →
      info.Stores next ∧ (pos.slot < next.slot ↔ pos.entryId + 1 < u64Modulus ∨
        ∀ ledger ∈ info.ledgers, ledger.ledgerId = pos.ledgerId → ledger.entries = 0)) ∧
    (∀ pos previous, info.previousPosition pos = some previous → previous.slot < pos.slot ∧
      (info.Stores previous ↔ pos.entryId = 0 ∨ ∃ ledger ∈ info.ledgers,
        ledger.ledgerId = pos.ledgerId ∧ pos.entryId ≤ ledger.entries)) := by
  by_cases empty : info.ledgers = []
  · have nothing partition turns : info.walk partition turns = none := by
      simp only [walk, firstPosition, empty]
      exact Function.iterate_fixed rfl turns
    simp [nothing, Stores, nextPosition, previousPosition, empty, maxByLedgerId, slot_lt_iff]
    omega
  have ordered : info.Ordered := ⟨empty, increasing⟩
  refine ⟨fun partition pos => ⟨?_, ?_⟩,
    fun _ _ _ _ => walk_increases ordered words, walk_ends ordered words,
    fun _ _ => previous_next ordered words, fun _ _ => next_previous ordered words,
    fun pos next word found => ⟨(next_position_least ordered found).1,
      next_after_iff ordered word found⟩,
    fun pos previous found => ⟨(previous_position_some ordered found).2.1,
      previous_stores_iff found⟩⟩
  · rintro ⟨turns, visited⟩
    exact walk_stores ordered visited
  · rintro ⟨stores, rfl⟩
    exact walk_visits ordered words stores

def sampleSparse : StoredManagedLedgerInfo := ⟨[⟨1, 2, 0⟩, ⟨3, 0, 0⟩, ⟨4, 1, 0⟩]⟩

theorem sample_sparse_visited : ∃ turns, sampleSparse.walk (-1) turns = some ⟨4, 0, -1⟩ :=
  ((navigation_exact_iff sampleSparse (by decide) (by decide)).1 (-1) ⟨4, 0, -1⟩).mpr
    ⟨by decide, rfl⟩

/-- Back from a ledger that does not exist, and forward from the last entry id. -/
theorem navigation_leaves_the_log :
    sampleSparse.previousPosition ⟨7, 5, -1⟩ = some ⟨7, 4, -1⟩ ∧
    ¬ sampleSparse.Stores ⟨7, 4, -1⟩ ∧
    sampleSparse.nextPosition ⟨1, u64Modulus - 1, -1⟩ = some ⟨1, 0, -1⟩ := by
  decide

end PulsarLite.Storage.StoredManagedLedgerInfo
