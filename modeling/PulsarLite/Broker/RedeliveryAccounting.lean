import PulsarLite.Broker.RedeliveryController
import PulsarLite.Library.Runs

/-!
# The hashes of a redelivery controller over whole runs

Seven operations in any order. A message that is taken again while it is in flight
overwrites its own hash there, and the hash that was counted for it is never released.
-/

namespace PulsarLite.Broker.RedeliveryController

open Library Storage OrderedMap

variable (controller : RedeliveryController) {stickyKeyHash : Option Int}

def takeForDelivery (messageId : MessageId) : Option RedeliveryEntry × RedeliveryController :=
  controller.takeForDeliveryWithHash messageId none

inductive Operation
  | add (entry : RedeliveryEntry)
  | popNext
  | takeForDelivery (messageId : MessageId)
  | takeForDeliveryWithHash (messageId : MessageId) (stickyKeyHash : Option Int)
  | restore (entry : RedeliveryEntry)
  | remove (messageId : MessageId)
  | clear

def perform : Operation → RedeliveryController
  | .add entry => controller.add entry
  | .popNext => controller.popNext.2
  | .takeForDelivery messageId => (controller.takeForDelivery messageId).2
  | .takeForDeliveryWithHash messageId stickyKeyHash =>
    (controller.takeForDeliveryWithHash messageId stickyKeyHash).2
  | .restore entry => controller.restore entry
  | .remove messageId => controller.remove messageId
  | .clear => controller.clear

/-- A message with a hash, its own or the supplied one, is not taken while it is in flight. -/
def LandsFirst (messageId : MessageId) (stickyKeyHash : Option Int) : Prop :=
  ∀ queued ∈ controller.entries.find messageId,
    (queued.stickyKeyHash.or stickyKeyHash).isSome = true → messageId ∉ controller.inFlightHashes

def Lands : Operation → Prop
  | .takeForDelivery messageId => controller.LandsFirst messageId none
  | .takeForDeliveryWithHash messageId stickyKeyHash =>
    controller.LandsFirst messageId stickyKeyHash
  | _ => True

instance (operation : Operation) : Decidable (controller.Lands operation) :=
  match operation with
  | .takeForDelivery _ | .takeForDeliveryWithHash _ _ =>
    inferInstanceAs (Decidable (∀ queued ∈ controller.entries.find _, _ → _))
  | .add _ | .popNext | .restore _ | .remove _ | .clear => .isTrue trivial

variable {controller : RedeliveryController} {messageId : MessageId} {lost : Int → Nat}

/-- What is taken is not queued any more. It has a hash, its own or the supplied one, or
there is none and nothing else changes. -/
theorem take_cases (controller : RedeliveryController) (messageId stickyKeyHash) :
    let after := (controller.takeForDeliveryWithHash messageId stickyKeyHash).2
    after = controller ∨ ∃ queued, (messageId, queued) ∈ controller.entries.bindings ∧
      ((∃ hash, queued.stickyKeyHash.or stickyKeyHash = some hash ∧
        controller.Taken messageId hash queued after) ∨
        queued.stickyKeyHash = none ∧
          after = { controller with entries := controller.entries.erase messageId }) := by
  intro after
  cases found : controller.entries.find messageId with
  | none => exact .inl (by simp [after, takeForDeliveryWithHash, found])
  | some queued =>
    have member := find_eq_some.mp found
    refine .inr ⟨queued, member, ?_⟩
    cases own : queued.stickyKeyHash with
    | some hash =>
      obtain ⟨result, isResult, taken⟩ := take_queued member (.inr own)
      have same : controller.takeForDeliveryWithHash messageId stickyKeyHash =
          controller.takeForDeliveryWithHash messageId (some hash) := by
        simp [takeForDeliveryWithHash, found, own]
      refine .inl ⟨hash, rfl, ?_⟩
      simpa [after, same, isResult] using taken
    | none =>
      cases stickyKeyHash with
      | some hash =>
        have supplied : queued.stickyKeyHash = none ∨ queued.stickyKeyHash = some hash := .inl own
        obtain ⟨result, isResult, taken⟩ := take_queued member supplied
        refine .inl ⟨hash, rfl, ?_⟩
        simpa [after, isResult] using taken
      | none =>
        refine .inr ⟨rfl, ?_⟩
        cases blocks : controller.blockHashes
        · simp [after, takeForDeliveryWithHash, found, own, blocks, decrementHash]
        · simp [after, takeForDeliveryWithHash, found, own, blocks]

theorem Balanced.take_landed (balanced : controller.Balanced lost)
    (landed : controller.LandsFirst messageId stickyKeyHash) :
    (controller.takeForDeliveryWithHash messageId stickyKeyHash).2.Balanced lost := by
  obtain same | ⟨queued, member, ⟨hash, isHash, taken⟩ | ⟨bare, same⟩⟩ :=
    take_cases controller messageId stickyKeyHash
  · rw [same]
    exact balanced
  · have apart := landed queued (find_eq_some.mpr member) (isHash ▸ rfl)
    simpa [find_eq_none.mpr apart] using balanced.take taken
  · rw [same]
    have dropped := balanced.drop member
    rw [bare] at dropped
    simpa [decrementHash] using dropped

theorem Balanced.perform {operation : Operation} (balanced : controller.Balanced fun _ => 0)
    (lands : controller.Lands operation) : (controller.perform operation).Balanced fun _ => 0 := by
  cases operation with
  | add entry => exact balanced.add
  | popNext =>
    unfold RedeliveryController.perform popNext
    dsimp only
    split
    next => exact balanced
    next entry rest isFirst => exact balanced.drop (isFirst ▸ List.mem_cons_self)
  | takeForDelivery messageId => exact balanced.take_landed lands
  | takeForDeliveryWithHash messageId stickyKeyHash => exact balanced.take_landed lands
  | restore entry => exact balanced.restore
  | remove messageId => exact balanced.remove
  | clear => exact balanced_new controller.blockHashes

variable {before after : PendingAck}

section

variable (queued : (messageId, before) ∈ controller.entries.bindings)
include queued

theorem count_le_of_kept (old : (messageId, after) ∈ controller.entries.bindings) :
    before.redeliveryCount ≤ after.redeliveryCount := by
  cases value_unique old queued rfl
  exact le_refl _

theorem count_le_of_add {entry}
    (still : (messageId, after) ∈ (controller.add entry).entries.bindings) :
    before.redeliveryCount ≤ after.redeliveryCount := by
  unfold add at still
  split at still
  next existing found =>
    have raised {hash} (new : (messageId, after) =
        (entry.1, ⟨max existing.redeliveryCount entry.2.redeliveryCount, hash⟩)) :
        before.redeliveryCount ≤ after.redeliveryCount := by
      cases new
      cases value_unique queued (find_eq_some.mp found) rfl
      exact le_max_left _ _
    split_ifs at still
    · rw [increment_hash_entries, mem_bindings_insert] at still
      exact still.elim raised fun old => count_le_of_kept queued old.2
    · rw [mem_bindings_insert] at still
      exact still.elim raised fun old => count_le_of_kept queued old.2
  next missing =>
    rw [increment_hash_entries, mem_bindings_insert] at still
    obtain new | old := still
    · cases new
      exact absurd (mem_of_binding queued) (find_eq_none.mp missing)
    · exact count_le_of_kept queued old.2

theorem count_le_of_take {other : MessageId} (still : (messageId, after) ∈
      (controller.takeForDeliveryWithHash other stickyKeyHash).2.entries.bindings) :
    before.redeliveryCount ≤ after.redeliveryCount := by
  apply count_le_of_kept queued
  obtain same | ⟨_, _, ⟨_, _, taken⟩ | ⟨_, same⟩⟩ := take_cases controller other stickyKeyHash
  · rwa [same] at still
  · rw [taken.entries] at still
    exact (mem_bindings_erase.mp still).2
  · rw [same] at still
    exact (mem_bindings_erase.mp still).2

theorem count_le_of_perform (operation : Operation)
    (still : (messageId, after) ∈ (controller.perform operation).entries.bindings) :
    before.redeliveryCount ≤ after.redeliveryCount := by
  cases operation with
  | add entry => exact count_le_of_add queued still
  | popNext =>
    unfold perform popNext at still
    dsimp only at still
    split at still
    next => exact count_le_of_kept queued still
    next =>
      rw [decrement_hash_entries] at still
      exact count_le_of_kept queued (mem_bindings_erase.mp still).2
  | takeForDelivery other => exact count_le_of_take queued still
  | takeForDeliveryWithHash other stickyKeyHash => exact count_le_of_take queued still
  | restore entry =>
    rw [← release_entries] at queued
    exact count_le_of_add queued still
  | remove other => exact count_le_of_kept queued (mem_remove_entries.mp still).2
  | clear => exact absurd still not_mem_bindings_empty

end

theorem perform_block (operation : Operation) :
    (controller.perform operation).blockHashes = controller.blockHashes := by
  have take messageId stickyKeyHash :
      (controller.takeForDeliveryWithHash messageId stickyKeyHash).2.blockHashes =
        controller.blockHashes := by
    obtain same | ⟨_, _, ⟨_, _, taken⟩ | ⟨_, same⟩⟩ := take_cases controller messageId stickyKeyHash
    · rw [same]
    · exact taken.blocks
    · rw [same]
  cases operation with
  | add entry => exact add_block
  | popNext =>
    unfold perform popNext
    dsimp only
    split
    next => rfl
    next => exact decrement_hash_block _ _
  | takeForDelivery messageId => exact take messageId none
  | takeForDeliveryWithHash messageId stickyKeyHash => exact take messageId stickyKeyHash
  | restore entry => exact restore_block
  | remove messageId => exact remove_block
  | clear => rfl

/-- The counts of the hashes are exact as long as no message with a hash is taken while it is
in flight. The redelivery count of a message that stays queued does not decrease, whatever is
done to whichever controller. -/
theorem hash_accounting_when_landed (controller : RedeliveryController)
    (run : Run perform Lands (new true) controller) :
    (∀ hash, controller.blockedHashes hash = controller.weight hash) ∧
    (∀ hash, controller.isHashBlocked hash = true ↔
      (∃ queued ∈ controller.entries.bindings, queued.2.stickyKeyHash = some hash) ∨
      ∃ inFlight ∈ controller.inFlightHashes.bindings, inFlight.2 = hash) ∧
    ∀ (other : RedeliveryController) operation messageId before after,
      (messageId, before) ∈ other.entries.bindings →
      (messageId, after) ∈ (other.perform operation).entries.bindings →
        before.redeliveryCount ≤ after.redeliveryCount := by
  have kept : controller.blockHashes = true ∧ controller.Balanced fun _ => 0 := by
    apply run.invariant
    · exact ⟨rfl, balanced_new true⟩
    · intro before operation held lands
      exact ⟨(perform_block operation).trans held.1, held.2.perform lands⟩
  have exact hash : controller.blockedHashes hash = controller.weight hash := kept.2 kept.1 hash
  refine ⟨exact, fun hash => ?_, fun _ operation _ _ _ queued =>
    count_le_of_perform queued operation⟩
  simp [isHashBlocked, exact, weight, count, List.countP_pos_iff]

def sampleFirst : RedeliveryEntry := (⟨0, 0, -1⟩, ⟨1, some 7⟩)

def sampleSecond : RedeliveryEntry := (⟨0, 1, -1⟩, ⟨0, none⟩)

/-- The first message comes back, is taken again and acknowledged. The second one gets its
hash when it is taken, and is queued anew while it is in flight. -/
def sampleLanded : List Operation :=
  [.add sampleFirst, .add sampleSecond, .takeForDelivery sampleFirst.1, .restore sampleFirst,
    .takeForDelivery sampleFirst.1, .takeForDeliveryWithHash sampleSecond.1 (some 7),
    .add sampleSecond, .remove sampleFirst.1]

theorem sample_landed_blocked :
    let controller := sampleLanded.foldl perform (new true)
    controller.blockedHashes 7 = controller.weight 7 ∧
    (controller.isHashBlocked 7 = true ↔
      (∃ queued ∈ controller.entries.bindings, queued.2.stickyKeyHash = some 7) ∨
      ∃ inFlight ∈ controller.inFlightHashes.bindings, inFlight.2 = 7) ∧
    controller.blockedHashes 7 = 1 := by
  have accounted := hash_accounting_when_landed _
    (Run.of_permits (by decide : Run.Permits perform Lands (new true) sampleLanded))
  exact ⟨accounted.1 7, accounted.2.1 7, by decide⟩

def sampleRetaken : RedeliveryController :=
  [.add sampleFirst, .takeForDelivery sampleFirst.1, .add sampleFirst,
    .takeForDelivery sampleFirst.1, .remove sampleFirst.1].foldl perform (new true)

/-- A message is taken, queued and taken again, and removed: its hash stays blocked. -/
theorem retaken_hash_stays_blocked :
    sampleRetaken.isHashBlocked 7 = true ∧ sampleRetaken.weight 7 = 0 := by
  decide

end PulsarLite.Broker.RedeliveryController
