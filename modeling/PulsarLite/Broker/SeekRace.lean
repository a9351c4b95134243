import PulsarLite.Broker.Consumer
import PulsarLite.Library.Runs

/-!
# A seek and the deliveries after it

`seek_to_message_id` empties the pending acks of all consumers under the lock of the
subscription. Once the lock is released, dispatch passes go on, and `handle_seek` empties
the pending acks of its own consumer again, at any time. Which message a pass sends to
which consumer is left open here; the steps are the awaits of the passes and handlers.
-/

namespace PulsarLite.Broker.SeekRace

open Library Storage List Consumer OrderedMap Option

/-- The consumers of a subscription after the lock was released. What is `owed` was sent since
then and has not been acknowledged, queued again or left behind by its consumer. -/
structure State where
  consumers : Nat → Option Consumer
  owed : List (Nat × MessageId)

inductive Event
  | send (consumerId : Nat) (messageId : MessageId) (redeliveryCount : Nat)
      (stickyKeyHash : Option Int) (slots : ChannelSlots)
  | flow (consumerId permits : Nat)
  | setWritable (consumerId : Nat) (isWritable : Bool)
  | acked (consumerId : Nat) (messageId : MessageId)
  | redelivered (consumerId : Nat) (messageId : MessageId)
  | removed (consumerId : Nat)
  | drained (consumerId : Nat)

variable (state : State)

def State.put (consumerId : Nat) (consumer : Option Consumer) : State :=
  { state with consumers := Function.update state.consumers consumerId consumer }

/-- The message is nobody's to wait for any more. -/
def State.settle (consumerId : Nat) (messageId : MessageId) : State :=
  { state with owed := state.owed.filter (· ≠ (consumerId, messageId)) }

/-- A message that could not be sent is queued for redelivery. -/
def step : Event → State
  | .send consumerId messageId redeliveryCount stickyKeyHash slots =>
    match state.consumers consumerId with
    | none => state
    | some consumer =>
      let (sent, after, _) :=
        consumer.sendMessageWithStickyHash messageId redeliveryCount stickyKeyHash slots
      let state := state.put consumerId (some after)
      if sent then { state with owed := (consumerId, messageId) :: state.owed }
      else state.settle consumerId messageId
  | .flow consumerId permits =>
    state.put consumerId ((state.consumers consumerId).map (·.addPermits permits))
  | .setWritable consumerId isWritable =>
    state.put consumerId ((state.consumers consumerId).map fun consumer =>
      { consumer with isWritable := isWritable })
  | .acked consumerId messageId | .redelivered consumerId messageId =>
    (state.put consumerId ((state.consumers consumerId).map
      (·.removePendingAck messageId))).settle consumerId messageId
  | .removed consumerId =>
    { state.put consumerId none with owed := state.owed.filter (·.1 ≠ consumerId) }
  | .drained consumerId =>
    state.put consumerId ((state.consumers consumerId).map (·.drainPendingAcks.2))

def State.Pends (consumerId : Nat) (messageId : MessageId) : Prop :=
  ∃ consumer, state.consumers consumerId = some consumer ∧ messageId ∈ consumer.pendingAcks

def Kept : Prop :=
  ∀ consumerId messageId, (consumerId, messageId) ∈ state.owed → state.Pends consumerId messageId

/-- Nothing was sent to the consumer since the seek, or it has been settled. -/
def OwesNothing (consumerId : Nat) : Prop :=
  ∀ messageId, (consumerId, messageId) ∉ state.owed

def Event.IsDrain : Event → Prop
  | .drained _ => True
  | _ => False

variable {state : State} {consumerId : Nat} {messageId : MessageId}

section

variable (kept : Kept state)
include kept

theorem Kept.put {after} {owed : List (Nat × MessageId)}
    (fewer : ∀ pair ∈ owed, pair.1 ≠ consumerId → pair ∈ state.owed)
    (holds : ∀ messageId, (consumerId, messageId) ∈ owed → ∃ consumer, after = some consumer ∧
      messageId ∈ consumer.pendingAcks) :
    Kept { state.put consumerId after with owed := owed } := by
  intro other messageId isOwed
  by_cases same : other = consumerId
  · subst same
    obtain ⟨consumer, found, pends⟩ := holds messageId isOwed
    exact ⟨consumer, by simp [State.put, found], pends⟩
  · obtain ⟨consumer, found, pends⟩ := kept other messageId (fewer _ isOwed same)
    exact ⟨consumer, by simp [State.put, same, found], pends⟩

theorem Kept.change (change : Consumer → Consumer)
    (same : ∀ consumer, (change consumer).pendingAcks = consumer.pendingAcks) :
    Kept (state.put consumerId ((state.consumers consumerId).map change)) := by
  refine kept.put (fun _ isOwed _ => isOwed) fun messageId isOwed => ?_
  obtain ⟨consumer, found, pends⟩ := kept consumerId messageId isOwed
  exact ⟨change consumer, by rw [found]; rfl, by rw [same]; exact pends⟩

theorem Kept.take {consumer after : Consumer} (found : state.consumers consumerId = some consumer)
    (holds : ∀ other ∈ consumer.pendingAcks, other ≠ messageId → other ∈ after.pendingAcks) :
    Kept ((state.put consumerId (some after)).settle consumerId messageId) := by
  refine kept.put (fun pair isOwed _ => (mem_filter.mp isOwed).1) fun other isOwed => ?_
  obtain ⟨isOld, different⟩ := mem_filter.mp isOwed
  obtain ⟨holder, isHolder, pends⟩ := kept consumerId other isOld
  rw [found, some.injEq] at isHolder
  subst isHolder
  exact ⟨after, rfl, holds other pends (by simpa using different)⟩

theorem Kept.take_absent (missing : state.consumers consumerId = none) :
    Kept ((state.put consumerId none).settle consumerId messageId) := by
  refine kept.put (fun pair isOwed _ => (mem_filter.mp isOwed).1) fun other isOwed => ?_
  obtain ⟨holder, isHolder, _⟩ := kept consumerId other (mem_filter.mp isOwed).1
  rw [missing] at isHolder
  cases isHolder

theorem Kept.removePendingAck :
    Kept ((state.put consumerId ((state.consumers consumerId).map
      (·.removePendingAck messageId))).settle consumerId messageId) := by
  cases found : state.consumers consumerId with
  | none => exact kept.take_absent found
  | some consumer =>
    refine kept.take found fun other pends different => ?_
    simpa [Consumer.removePendingAck, different] using pends

theorem Kept.step {event : Event} (other : ¬ event.IsDrain) : Kept (step state event) := by
  cases event with
  | send consumerId messageId redeliveryCount stickyKeyHash slots =>
    rw [SeekRace.step]
    cases found : state.consumers consumerId with
    | none => exact kept
    | some consumer =>
      dsimp only
      split_ifs with sent
      · rw [send_sent sent]
        refine kept.put ?_ fun other isOwed => ?_
        · intro pair isOwed different
          rcases mem_cons.mp isOwed with rfl | isOld
          · exact absurd rfl different
          · exact isOld
        refine ⟨_, rfl, mem_insert.mpr ?_⟩
        rcases mem_cons.mp isOwed with isNew | isOld
        · exact Or.inl (Prod.mk.inj isNew).2
        · obtain ⟨holder, isHolder, pends⟩ := kept consumerId other isOld
          rw [found, some.injEq] at isHolder
          exact Or.inr (isHolder ▸ pends)
      · apply kept.take found
        intro other pends different
        rcases send_refused (Bool.eq_false_iff.mpr sent) with same | fewer
        · rw [same]
          exact pends
        · rw [fewer]
          simpa [Consumer.removePendingAck, different] using pends
  | flow | setWritable => exact kept.change _ fun _ => rfl
  | acked | redelivered => exact kept.removePendingAck
  | removed consumerId =>
    refine kept.put (fun pair isOwed _ => (mem_filter.mp isOwed).1) fun other isOwed => ?_
    exact absurd (mem_filter.mp isOwed).2 (by simp)
  | drained => exact absurd trivial other

theorem Kept.run {events : List Event} (others : ∀ event ∈ events, ¬ event.IsDrain) :
    Kept (events.foldl SeekRace.step state) := by
  induction events generalizing state with
  | nil => exact kept
  | cons event events ih =>
    exact ih (kept.step (others event mem_cons_self))
      fun later member => others later (mem_cons_of_mem _ member)

theorem drained_kept_iff :
    Kept (step state (.drained consumerId)) ↔ OwesNothing state consumerId := by
  constructor
  · intro after messageId isOwed
    obtain ⟨consumer, found, pends⟩ := after consumerId messageId isOwed
    simp only [SeekRace.step, State.put, Function.update_self] at found
    obtain ⟨old, _, rfl⟩ := map_eq_some_iff.mp found
    exact not_mem_empty pends
  · intro nothing
    exact kept.put (fun _ isOwed _ => isOwed) fun messageId isOwed =>
      absurd isOwed (nothing messageId)

end

/-- After the release nothing is pending or owed. For every interleaving, with the drain of
the handler at any place: everything sent stays pending as long as it should exactly if
nothing is owed to the seeking consumer when its drain comes. -/
theorem deliveries_survive_seek_iff (consumers : Nat → Option Consumer) (seeker : Nat)
    (before after : List Event) (others : ∀ event ∈ before ++ after, ¬ event.IsDrain) :
    (∀ first rest, before ++ .drained seeker :: after = first ++ rest →
      Kept (first.foldl step ⟨consumers, []⟩)) ↔
      OwesNothing (before.foldl step ⟨consumers, []⟩) seeker := by
  have start : Kept ⟨consumers, []⟩ := fun _ _ isOwed => absurd isOwed not_mem_nil
  have early first rest : before = first ++ rest → Kept (first.foldl step ⟨consumers, []⟩) := by
    intro split
    refine start.run fun event member => others event ?_
    rw [split]
    simp [member]
  have reached := early before [] (append_nil before).symm
  rw [← drained_kept_iff reached]
  constructor
  · intro all
    have drained := all (before ++ [.drained seeker]) after (by simp)
    rwa [foldl_append] at drained
  intro drained first rest split
  rcases append_eq_append_iff.mp split with ⟨more, longer, tail⟩ | ⟨more, shorter, tail⟩
  · cases more with
    | nil =>
      rw [longer, append_nil]
      exact reached
    | cons event more =>
      rw [cons_append, List.cons.injEq] at tail
      rw [longer, ← tail.1, foldl_append, foldl_cons]
      refine drained.run fun later member => others later ?_
      rw [tail.2]
      simp [member]
  · exact early first more shorter

def sampleConsumers : Nat → Option Consumer := fun consumerId =>
  if consumerId = 5 then some (.new [] 0 none) else none

def sampleId : MessageId := { ledger := 0, entry := 0, partition := -1 }

/-- A message is sent and acknowledged before the drain, and sent again after it. -/
theorem acked_delivery_survives :
    let events := [.send 5 sampleId 0 none [], .acked 5 sampleId, .drained 5,
      .send 5 sampleId 0 none []]
    Kept (events.foldl step ⟨sampleConsumers, []⟩) ∧
      (events.foldl step ⟨sampleConsumers, []⟩).Pends 5 sampleId := by
  refine ⟨(deliveries_survive_seek_iff sampleConsumers 5
    [.send 5 sampleId 0 none [], .acked 5 sampleId] [.send 5 sampleId 0 none []]
    (by simp [Event.IsDrain])).mpr ?_ _ [] rfl, _, rfl, by decide⟩
  intro messageId
  simp [step, sampleConsumers, Consumer.new, sendMessageWithStickyHash, State.settle, State.put]

/-- A message that is sent before the drain is not waited for any more. -/
theorem delivery_drained :
    ([Event.send 5 sampleId 0 none []].foldl step ⟨sampleConsumers, []⟩).Pends 5 sampleId ∧
    ¬ Kept ([Event.send 5 sampleId 0 none [], .drained 5].foldl step ⟨sampleConsumers, []⟩) := by
  refine ⟨⟨_, rfl, by decide⟩, ?_⟩
  intro kept
  obtain ⟨consumer, found, pends⟩ := kept 5 sampleId mem_cons_self
  cases found
  exact not_mem_empty pends

end PulsarLite.Broker.SeekRace
