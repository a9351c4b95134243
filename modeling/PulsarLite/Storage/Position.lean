import Mathlib.Data.Prod.Lex
import PulsarLite.Library.Bytes
import PulsarLite.Storage.RangeSet

/-!
# Positions and message ids

A position names one entry of a managed ledger. Positions are compared by
ledger, then entry, then partition. Cursors keep only the first two, under the
partition `-1`; `slot` is that part of a position.
-/

namespace PulsarLite.Storage

open Library

def u64Modulus : Nat := 2 ^ 64

structure ManagedLedgerPosition where
  ledgerId : Nat
  entryId : Nat
  partition : Int

structure MessageId where
  ledger : Nat
  entry : Nat
  partition : Int

def MessageId.IsWord (id : MessageId) : Prop := id.ledger < u64Modulus ∧ id.entry < u64Modulus

instance (id : MessageId) : Decidable id.IsWord := inferInstanceAs (Decidable (_ ∧ _))

def MessageId.toPosition (id : MessageId) : ManagedLedgerPosition where
  ledgerId := id.ledger
  entryId := id.entry
  partition := id.partition

namespace ManagedLedgerPosition

variable (pos : ManagedLedgerPosition)

def toMessageId : MessageId where
  ledger := pos.ledgerId
  entry := pos.entryId
  partition := pos.partition

@[simp] theorem to_position_to_message_id : pos.toMessageId.toPosition = pos := rfl

def slot : Nat ×ₗ Nat := toLex (pos.ledgerId, pos.entryId)

def orderKey : (Nat ×ₗ Nat) ×ₗ Int :=
  toLex (pos.slot, pos.partition)

theorem order_key_injective : Function.Injective orderKey := by
  intro left right same
  cases left
  cases right
  simpa [orderKey, slot, and_assoc] using same

instance : LinearOrder ManagedLedgerPosition :=
  .lift' orderKey order_key_injective

variable (left right : ManagedLedgerPosition)

theorem slot_lt_iff : left.slot < right.slot ↔ left.ledgerId < right.ledgerId ∨
      left.ledgerId = right.ledgerId ∧ left.entryId < right.entryId := by
  simp [slot, Prod.Lex.toLex_lt_toLex]

theorem slot_le_iff : left.slot ≤ right.slot ↔ left.ledgerId < right.ledgerId ∨
      left.ledgerId = right.ledgerId ∧ left.entryId ≤ right.entryId := by
  simp [slot, Prod.Lex.toLex_le_toLex]

theorem slot_eq_iff : left.slot = right.slot ↔
      left.ledgerId = right.ledgerId ∧ left.entryId = right.entryId := by
  simp [slot]

theorem lt_iff : left < right ↔ left.slot < right.slot ∨
      left.slot = right.slot ∧ left.partition < right.partition := by
  change orderKey left < orderKey right ↔ _
  simp [orderKey, Prod.Lex.toLex_lt_toLex]

theorem le_iff : left ≤ right ↔ left.slot < right.slot ∨
      left.slot = right.slot ∧ left.partition ≤ right.partition := by
  change orderKey left ≤ orderKey right ↔ _
  simp [orderKey, Prod.Lex.toLex_le_toLex]

theorem slot_mono : Monotone slot := by
  intro left right below
  obtain before | tie := (le_iff left right).mp below
  · exact before.le
  · exact tie.1.le

theorem ledger_id_mono : Monotone ledgerId := by
  intro left right below
  obtain before | tie := (slot_le_iff left right).mp (slot_mono below)
  · exact before.le
  · exact tie.1.le

variable {left right : ManagedLedgerPosition}

theorem lt_iff_slot_lt (same : left.partition = right.partition) :
    left < right ↔ left.slot < right.slot := by
  rw [lt_iff, same]
  simp

theorem le_iff_slot_le (same : left.partition = right.partition) :
    left ≤ right ↔ left.slot ≤ right.slot := by
  rw [le_iff, same, le_iff_lt_or_eq (a := left.slot)]
  simp

theorem ext_slot (slots : left.slot = right.slot) (same : left.partition = right.partition) :
    left = right := by
  apply order_key_injective
  rw [orderKey, orderKey, slots, same]

/-- `checked_add` on the entry id. -/
instance : Succ ManagedLedgerPosition where
  succ pos :=
    if pos.entryId + 1 < u64Modulus then some { pos with entryId := pos.entryId + 1 } else none

theorem succ_eq_some {pos next : ManagedLedgerPosition} : Succ.succ pos = some next ↔
      pos.entryId + 1 < u64Modulus ∧ { pos with entryId := pos.entryId + 1 } = next := by
  simp [Succ.succ]

theorem succ_ledger_id (pos next : ManagedLedgerPosition) (found : Succ.succ pos = some next) :
    next.ledgerId = pos.ledgerId := by
  rw [← (succ_eq_some.mp found).2]

theorem gapless_partition (partition : Int) :
    RangeSet.Gapless ManagedLedgerPosition (fun pos => pos.partition = partition) where
  succ_valid pos next valid found := by
    rw [← (succ_eq_some.mp found).2]
    exact valid
  succ_lt pos next _ found := by
    rw [← (succ_eq_some.mp found).2, lt_iff, slot_lt_iff]
    simp
  succ_le pos next other valid found otherValid below := by
    have same : next.partition = other.partition := by
      rw [← (succ_eq_some.mp found).2]
      exact valid.trans otherValid.symm
    rw [lt_iff_slot_lt (valid.trans otherValid.symm), slot_lt_iff] at below
    rw [le_iff_slot_le same, slot_le_iff, ← (succ_eq_some.mp found).2]
    simp only
    omega

end ManagedLedgerPosition

theorem MessageId.to_position_injective : Function.Injective MessageId.toPosition := by
  intro left right same
  cases left
  cases right
  simpa [MessageId.toPosition] using same

instance : LinearOrder MessageId :=
  LinearOrder.lift' MessageId.toPosition MessageId.to_position_injective

structure StoredMessage where
  messageId : MessageId
  metadata : Bytes
  payload : Bytes
deriving DecidableEq

end PulsarLite.Storage
