import PulsarLite.Broker.SingleActive

/-!
# Permits of a pass that fails

Exclusive and Failover take a permit from the consumer and from the aggregate before
they read. It is given back if there is nothing to send or the send fails, and not if
the read fails. What a pass keeps is the sum of permits, deliveries and what is owed.
-/

namespace PulsarLite.Broker.SingleActive

open Library Storage Consumer Option

/-- The permits of the active consumer and of the aggregate have gone down by what the
consumer was handed, and by so much more. -/
def Charged (consumerId : Nat) (owed : Int) (before after : Pass SingleActive) : Prop :=
  ∀ consumer, before.dispatcher.consumers.find consumerId = some consumer →
    ∃ later, after.dispatcher.consumers.find consumerId = some later ∧
      later.availablePermits =
        consumer.availablePermits - (after.delivered.length - before.delivered.length) - owed ∧
      (after.dispatcher.totalAvailablePermits : Int) =
        before.dispatcher.totalAvailablePermits -
          (after.delivered.length - before.delivered.length) - owed

/-- Permits, deliveries and what is owed make up a fixed sum. -/
structure Balanced (consumerId : Nat) (permits total owed : Int) (pass : Pass SingleActive)
    (consumer : Consumer) : Prop where
  found : pass.dispatcher.consumers.find consumerId = some consumer
  word : consumer.availablePermits < 2 ^ 31
  totalWord : pass.dispatcher.totalAvailablePermits < 2 ^ 32
  permits : consumer.availablePermits + pass.delivered.length + owed = permits
  total : pass.dispatcher.totalAvailablePermits + pass.delivered.length + owed = total

section

variable (context : DispatchContext) {consumerId : Nat} {permits total : Int}
  {pass after : Pass SingleActive} {consumer later : Consumer} {dispatcher : SingleActive}

def Settles (consumerId : Nat) (permits total : Int) (flow : Round) : Prop :=
  ∃ consumer, Balanced consumerId permits total (if flow.failure.isSome then 1 else 0) flow.state
    consumer

theorem find_put (consumers : OrderedMap Nat Consumer) (consumer : Consumer) :
    (consumers.insert consumerId consumer).find consumerId = some consumer :=
  OrderedMap.find_eq_some.mpr (OrderedMap.mem_bindings_insert.mpr (.inl rfl))

theorem Balanced.spent (balanced : Balanced consumerId permits total 0 pass consumer)
    (taken handed : Nat) (found : after.dispatcher.consumers.find consumerId = some later)
    (fewer : later.availablePermits + taken = consumer.availablePermits)
    (fewerTotal : after.dispatcher.totalAvailablePermits + taken =
      pass.dispatcher.totalAvailablePermits)
    (delivered : after.delivered.length = pass.delivered.length + handed) :
    Balanced consumerId permits total (taken - handed) after later := by
  obtain ⟨_, word, totalWord, permitSum, totalSum⟩ := balanced
  exact ⟨found, by omega, by omega, by omega, by omega⟩

theorem charge_one_total (positive : 0 < dispatcher.totalAvailablePermits)
    (word : dispatcher.totalAvailablePermits < 2 ^ 32) :
    dispatcher.chargeOne.totalAvailablePermits + 1 = dispatcher.totalAvailablePermits := by
  unfold chargeOne addTotalPermits
  dsimp only
  omega

theorem refund_total (consumerId : Nat)
    (word : dispatcher.totalAvailablePermits + 1 < 2 ^ 32) (consumer : Consumer) :
    (dispatcher.refund consumerId consumer).totalAvailablePermits =
      dispatcher.totalAvailablePermits + 1 :=
  Nat.mod_eq_of_lt word

theorem enqueue_permits (consumer : Consumer) (messageId slots) :
    (consumer.enqueueMessage messageId slots).2.1.availablePermits = consumer.availablePermits := by
  unfold enqueueMessage sendMessage sendMessageWithStickyHash
  split_ifs <;> rfl

theorem dispatch_round_settles (balanced : Balanced consumerId permits total 0 pass consumer)
    (positive : 0 < pass.dispatcher.totalAvailablePermits) :
    Settles consumerId permits total (dispatchRound context consumerId pass) ∧
      ∀ after, dispatchRound context consumerId pass = .next after →
        after.dispatcher.totalAvailablePermits + 1 = pass.dispatcher.totalAvailablePermits := by
  have word := balanced.word
  have charged := charge_one_total positive balanced.totalWord
  have refunded := refund_total consumerId (charged ▸ balanced.totalWord)
  unfold dispatchRound
  rw [balanced.found, bind_some, usePermit, tryUsePermits]
  generalize pass.dispatcher.chargeOne = dispatcher at charged refunded
  split_ifs with able
  · have one : wrapI32 (consumer.availablePermits - (1 : Nat)) = consumer.availablePermits - 1 :=
      wrap_i32_of_fits (by omega) (by omega)
    have back : wrapI32 (consumer.availablePermits - 1 + (1 : Nat)) =
        consumer.availablePermits := by
      rw [wrap_i32_of_fits] <;> omega
    rw [one]
    dsimp only
    generalize nextUnackedCandidate context.reader context.fuel dispatcher.readPosition = read
    rcases read with ⟨failure | _ | candidate, readPosition⟩
    · refine ⟨⟨_, balanced.spent 1 0 (find_put _ _) ?_ charged rfl⟩, nofun⟩
      exact Int.sub_add_cancel _ _
    · refine ⟨⟨_, balanced.spent 0 0 (find_put _ _) ?_ ?_ rfl⟩, nofun⟩
      · exact (Int.add_zero _).trans back
      · exact (Nat.add_zero _).trans ((refunded _).trans charged)
    have kept := enqueue_permits { consumer with
      availablePermits := consumer.availablePermits - 1 } candidate.messageId pass.slots
    dsimp only
    generalize enqueueMessage _ candidate.messageId pass.slots = attempt at kept ⊢
    obtain ⟨sent, after, slots⟩ := attempt
    cases sent with
    | true =>
      refine ⟨⟨after, balanced.spent 1 1 (find_put _ _) ?_ charged ?_⟩, ?_⟩
      · exact kept ▸ Int.sub_add_cancel _ _
      · exact List.length_append
      · rintro _ ⟨⟩
        exact charged
    | false =>
      refine ⟨⟨_, balanced.spent 0 0 (find_put _ _) ?_ ?_ rfl⟩, nofun⟩
      · refine (Int.add_zero _).trans (Eq.trans ?_ back)
        exact congrArg (fun permits => wrapI32 (permits + (1 : Nat))) kept
      · exact (Nat.add_zero _).trans ((refunded _).trans charged)
  · exact ⟨⟨consumer, balanced⟩, nofun⟩

theorem rounds_settle (count : Nat) (balanced : Balanced consumerId permits total 0 pass consumer)
    (enough : count ≤ pass.dispatcher.totalAvailablePermits) :
    Settles consumerId permits total (.rounds (dispatchRound context consumerId) count pass) := by
  induction count generalizing pass consumer with
  | zero => exact ⟨consumer, balanced⟩
  | succ count ih =>
    obtain ⟨settles, spent⟩ := dispatch_round_settles context balanced (by omega)
    rw [Flow.rounds]
    generalize dispatchRound context consumerId pass = round at settles spent
    cases round with
    | next after =>
      obtain ⟨later, settled⟩ := settles
      have less := spent after rfl
      exact ih settled (by omega)
    | stop | fail => exact settles

variable (balanced : Balanced consumerId permits total 0 pass consumer)
include balanced

theorem next_batch_settles :
    Settles consumerId permits total (nextBatch context (some consumerId) pass) := by
  unfold nextBatch
  dsimp only
  split_ifs with none
  · exact ⟨consumer, balanced⟩
  have begun : Balanced consumerId permits total 0 { pass with progress := 0 } consumer :=
    ⟨balanced.found, balanced.word, balanced.totalWord, balanced.permits, balanced.total⟩
  have settles := rounds_settle context _ begun (Nat.min_le_left _ dispatcherMaxRoundRobinBatchSize)
  generalize Flow.rounds (dispatchRound context consumerId) _ _ = flow at settles ⊢
  cases flow with
  | fail => exact settles
  | next | stop =>
    dsimp only
    split_ifs
    all_goals exact settles

theorem dispatch_messages_settles :
    Settles consumerId permits total (dispatchMessages context (some consumerId) pass) := by
  unfold dispatchMessages
  induction context.fuel generalizing pass consumer with
  | zero => exact ⟨consumer, balanced⟩
  | succ fuel ih =>
    have settles := next_batch_settles context balanced
    rw [Flow.rounds]
    generalize nextBatch context (some consumerId) pass = batch at settles
    cases batch with
    | next after =>
      obtain ⟨later, settled⟩ := settles
      exact ih settled
    | stop | fail => exact settles

end

/-- For the active consumer of either dispatcher, in every state: a pass in which a read
fails always costs one permit more than it hands out messages. -/
theorem failed_pass_owes_one (context : DispatchContext) (consumerId : Nat)
    (pass : Pass SingleActive) (consumer : Consumer)
    (found : pass.dispatcher.consumers.find consumerId = some consumer)
    (word : consumer.availablePermits < 2 ^ 31)
    (totalWord : pass.dispatcher.totalAvailablePermits < 2 ^ 32) (failure : DispatchError)
    (failed : (dispatchMessages context (some consumerId) pass).failure = some failure)
    (owed : Int) :
    Charged consumerId owed pass (dispatchMessages context (some consumerId) pass).state ↔
      owed = 1 := by
  have balanced : Balanced consumerId (consumer.availablePermits + pass.delivered.length)
      (pass.dispatcher.totalAvailablePermits + pass.delivered.length) 0 pass consumer :=
    ⟨found, word, totalWord, Int.add_zero _, Int.add_zero _⟩
  obtain ⟨later, settled⟩ := dispatch_messages_settles context balanced
  rw [failed, isSome_some, if_pos rfl] at settled
  generalize dispatchMessages context (some consumerId) pass = flow at settled
  have permits := settled.permits
  have total := settled.total
  constructor
  · intro charged
    obtain ⟨other, here, spent, _⟩ := charged consumer found
    rw [settled.found, some.injEq] at here
    rw [← here] at spent
    omega
  · rintro rfl other here
    rw [found, some.injEq] at here
    exact ⟨later, settled.found, by rw [← here]; omega, by omega⟩

def sampleConsumer (permits : Int) : Consumer :=
  { Consumer.new [] 0 none with availablePermits := permits }

def samplePass : Pass SingleActive where
  dispatcher := {
    consumers := OrderedMap.empty.insert 5 (sampleConsumer 3)
    totalAvailablePermits := 3
    readPosition := none }
  slots := []
  delivered := []
  progress := 0

/-- One message can be read; the read of the next one fails. -/
def sampleContext : DispatchContext where
  reader := {
    firstUnackedPosition := .ok (some ⟨0, 0, -1⟩)
    readEntriesFrom := fun position _ =>
      if position.entryId = 0 then .ok [⟨⟨0, 0, -1⟩, [255], [1]⟩] else .error (.opening "IO error")
    getNextPosition := fun _ => .ok none
    isAcknowledged := fun _ => false
    getMessageEntryById := fun _ => none }
  decode := fun _ => none
  fuel := 10

theorem sample_failed_pass_owes_one : Charged 5 1 samplePass
    (dispatchMessages sampleContext (some 5) samplePass).state :=
  (failed_pass_owes_one sampleContext 5 samplePass (sampleConsumer 3) rfl (by decide) (by decide)
    _ rfl 1).mpr rfl

/-- A read that fails costs the consumer and the aggregate a permit each. -/
theorem failed_read_keeps_permit :
    (dispatchMessages sampleContext (some 5) samplePass).failure = some (.opening "IO error") ∧
      (dispatchMessages sampleContext (some 5) samplePass).state.delivered.length = 1 ∧
      ¬ Charged 5 0 samplePass (dispatchMessages sampleContext (some 5) samplePass).state := by
  refine ⟨rfl, rfl, ?_⟩
  intro charged
  obtain ⟨later, found, permits, _⟩ := charged (sampleConsumer 3) rfl
  cases found
  exact absurd permits (by decide)

end PulsarLite.Broker.SingleActive
