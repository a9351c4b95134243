import PulsarLite.Broker.Consumer

/-!
# Reserving a dispatch

Permits, a slot of the channel and a pending ack are taken one after the other, and
given back if one of them is not to be had. Dropping a reservation gives back one
permit, however many it took.
-/

namespace PulsarLite.Broker.Consumer

open Library Storage

/-- `None` is a failed attempt. The number is that of the free slots of the channel. -/
def tryReserveDispatch (messageId : MessageId) (redeliveryCount permits : Nat)
    (consumer : Consumer) (slots : Nat) : Bool × Consumer × Nat :=
  match consumer.tryUsePermits permits with
  | none => (false, consumer, slots)
  | some charged =>
    if !charged.isWritable then (false, charged.addPermits permits, slots)
    else
      match slots with
      | 0 => (false, charged.addPermits permits, 0)
      | free + 1 =>
        if charged.closed then (false, charged.addPermits permits, free + 1)
        else
          (true, { charged with
            pendingAcks := charged.pendingAcks.insert messageId ⟨redeliveryCount, none⟩ }, free)

/-- `drop`, and the task that it spawns. -/
def dropReservation (messageId : MessageId) (consumer : Consumer) (slots : Nat) : Consumer × Nat :=
  ((consumer.addPermits 1).removePendingAck messageId, slots + 1)

variable {consumer : Consumer} (low : -(2 ^ 31) ≤ consumer.availablePermits)
  (high : consumer.availablePermits < 2 ^ 31)
include low high

theorem reserve_cases (messageId : MessageId) (redeliveryCount permits slots : Nat) :
    tryReserveDispatch messageId redeliveryCount permits consumer slots = (false, consumer, slots) ∨
    ∃ free, slots = free + 1 ∧
      tryReserveDispatch messageId redeliveryCount permits consumer slots = (true, { consumer with
        availablePermits := wrapI32 (consumer.availablePermits - permits)
        pendingAcks := consumer.pendingAcks.insert messageId ⟨redeliveryCount, none⟩ }, free) := by
  have back : { consumer with
      availablePermits := wrapI32 (consumer.availablePermits - permits) }.addPermits permits =
      consumer := by
    have same : wrapI32 (wrapI32 (consumer.availablePermits - permits) + permits) =
        consumer.availablePermits := by
      rw [← wrap_i32_of_fits low high]
      simp [wrapI32]
    rw [addPermits, same]
  unfold tryReserveDispatch tryUsePermits
  by_cases positive : 0 < consumer.availablePermits
  · rw [if_pos positive]
    cases slots with
    | zero =>
      dsimp only
      rw [back, ite_self]
      exact .inl rfl
    | succ free =>
      dsimp only
      rw [back]
      split_ifs
      · exact .inl rfl
      · exact .inl rfl
      · exact .inr ⟨free, rfl, rfl⟩
  · rw [if_neg positive]
    exact .inl rfl

theorem gives_back_iff {permits : Nat} (some : 1 ≤ permits) (word : permits < 2 ^ 32) :
    wrapI32 (wrapI32 (consumer.availablePermits - permits) + (1 : Nat)) =
      consumer.availablePermits ↔ permits = 1 := by
  simp only [wrapI32, Int.bmod_def]
  omega

/-- A failed attempt takes nothing. A dropped reservation gives back what it took if
that was one permit, and the message was not pending before. -/
theorem reservation_all_or_nothing_iff (messageId : MessageId)
    (redeliveryCount permits slots : Nat) (some : 1 ≤ permits) (word : permits < 2 ^ 32) :
    let outcome := tryReserveDispatch messageId redeliveryCount permits consumer slots
    (outcome.1 = false → outcome.2 = (consumer, slots)) ∧
    (outcome.1 = true → (dropReservation messageId outcome.2.1 outcome.2.2 = (consumer, slots) ↔
      permits = 1 ∧ messageId ∉ consumer.pendingAcks)) := by
  intro outcome
  rcases reserve_cases low high messageId redeliveryCount permits slots with
    failed | ⟨free, rfl, taken⟩
  · simp [outcome, failed]
  · simp only [outcome, taken]
    refine ⟨by simp, fun _ => ?_⟩
    rw [← gives_back_iff low high some word, ← OrderedMap.erase_insert_iff ⟨redeliveryCount, none⟩]
    cases consumer
    simp [dropReservation, addPermits, removePendingAck]

omit low high

def sampleReserving : Consumer := { new [] 0 none with availablePermits := 5 }

theorem sample_single_permit_restored :
    (tryReserveDispatch ⟨1, 2, -1⟩ 0 1 sampleReserving 4).1 = true ∧
    (let outcome := tryReserveDispatch ⟨1, 2, -1⟩ 0 1 sampleReserving 4
    dropReservation ⟨1, 2, -1⟩ outcome.2.1 outcome.2.2 = (sampleReserving, 4)) :=
  ⟨by decide, ((reservation_all_or_nothing_iff (by decide) (by decide) ⟨1, 2, -1⟩ 0 1 4 (by decide)
    (by decide)).2 (by decide)).mpr ⟨rfl, by decide⟩⟩

/-- A batch of three is reserved and dropped: two permits are gone. -/
theorem dropped_reservation_keeps_permits :
    let outcome := tryReserveDispatch ⟨1, 2, -1⟩ 0 3 sampleReserving 4
    outcome.1 = true ∧
      (dropReservation ⟨1, 2, -1⟩ outcome.2.1 outcome.2.2).1.availablePermits = 3 := by
  decide

end PulsarLite.Broker.Consumer
