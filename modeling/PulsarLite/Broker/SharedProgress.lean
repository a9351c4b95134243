import PulsarLite.Broker.ReadProgress
import PulsarLite.Broker.SharedTurns

/-!
# When a pass of the Shared dispatcher hands something out

It does so in its first batch or not at all. The batch drops the stale entries at the
head of the queue, one in a turn, and the next turn is the one that counts: it is
that of one consumer, and if this one cannot be sent a message, nobody is.
-/

namespace PulsarLite.Broker.SharedDispatcher

open Library Storage Flow OrderedMap RedeliveryController

variable {consumer : Nat × Consumer} {pass : Pass SharedDispatcher} {dispatcher : SharedDispatcher}
  {message : StoredMessage} {context : DispatchContext} {view : SubscriptionView} {round : Round}
  {pick : Pick}

theorem Turn.arranged (turn : Turn context pass round)
    (arranged : Arranged pass.dispatcher) : Arranged round.state.dispatcher := by
  cases turn with
  | nobody | dropped => exact arranged.ranked rfl rfl
  | exhausted round nothing ends left =>
    rw [left]
    exact arranged.ranked rfl rfl
  | handed consumer pick slots attempt =>
    exact arranged.ranked rfl (map_bindings_insert attempt.chosen.available.1 rfl)
  | bounced consumer pick unsent slots attempt bounces =>
    exact arranged.ranked rfl (map_bindings_insert attempt.chosen.available.1
      (congrArg (Prod.mk consumer.1) bounces.level))

/-- A turn hands out one message or none, and counts what it hands out. -/
theorem Turn.delivered (turn : Turn context pass round) :
    pass.delivered.length ≤ round.state.delivered.length ∧
      round.state.delivered.length + pass.progress =
        pass.delivered.length + round.state.progress := by
  cases turn with
  | exhausted round nothing ends left =>
    rw [left]
    exact ⟨le_refl _, rfl⟩
  | handed =>
    simp only [state, List.length_append, List.length_singleton]
    omega
  | _ => exact ⟨le_refl _, rfl⟩

theorem dispatch_messages_arranged (arranged : Arranged pass.dispatcher) :
    Arranged (dispatchMessages context pass).state.dispatcher := by
  let holds : Pass SharedDispatcher → Prop := fun pass => Arranged pass.dispatcher
  have kept pass : holds pass → holds (dispatchRound context pass).state :=
    (dispatch_round_turn context pass).arranged
  exact dispatch_messages_keeps_rounds pass (fun _ between => between) kept arranged

/-- A stored message that is not acknowledged, and either queued or not before the
read position and in nobody's hands. -/
structure Waits (reader : SubscriptionReader) (dispatcher : SharedDispatcher)
    (message : StoredMessage) : Prop where
  stored : reader.getMessageEntryById message.messageId = some message
  unacked : reader.isAcknowledged message.messageId = false
  turn : message.messageId ∈ dispatcher.redeliveryController.entries ∨
    dispatcher.isMessagePending message.messageId = false ∧
      ∀ position, dispatcher.readPosition = some position →
        position.slot ≤ message.messageId.slot

theorem obtainable_iff (presents : Presents context.reader view) (regular : -1 ≤ view.partition)
    (enough : view.messages.length < context.fuel) (ready : dispatcher.Ready view) :
    Obtainable context dispatcher ↔ ∃ message, Waits context.reader dispatcher message := by
  constructor
  · rintro (⟨entry, queued, fresh⟩ | ⟨candidate, found⟩)
    · simp only [isStale, Bool.or_eq_false_iff, Option.isNone_eq_false_iff] at fresh
      obtain ⟨message, stored⟩ := Option.isSome_iff_exists.mp fresh.2
      obtain ⟨_, same⟩ := (presents.entry _ message).mp stored
      refine ⟨message, ?_, ?_, .inl ?_⟩
      · rw [same, stored]
      · rw [same, fresh.1]
      · exact same ▸ mem_of_binding queued
    · obtain ⟨_, answer, asked, spec⟩ := next_dispatchable_message_spec presents context.fuel
        context.fuel (fun _ _ => trivial) ready.settles.reached
      cases asked.symm.trans found
      obtain ⟨free, message, hit⟩ := spec candidate rfl
      refine ⟨message, (presents.entry _ message).mpr ⟨hit.member, rfl⟩, ?_,
        .inr ⟨hit.messageId ▸ free, hit.ahead⟩⟩
      rw [← Bool.not_eq_true, presents.acknowledged]
      exact hit.unacked
  · rintro ⟨message, stored, unacked, queued | ⟨free, ahead⟩⟩
    · obtain ⟨pending, bound⟩ := mem_iff.mp queued
      refine .inl ⟨_, bound, ?_⟩
      rw [isStale, unacked, stored]
      rfl
    · obtain ⟨member, _⟩ := (presents.entry _ message).mp stored
      have fresh : ¬ view.acked message.messageId.slot := by
        rw [← presents.acknowledged, unacked]
        exact Bool.false_ne_true
      exact .inr (next_dispatchable_finds presents regular ready member fresh free enough ahead)

theorem Picks.first (picks : Picks context dispatcher pick) :
    staleAhead context.reader dispatcher = 0 := by
  cases picks with
  | queued redelivery controller stored popped unacked found =>
    rw [staleAhead, pop_next_bindings popped, List.takeWhile_cons_of_neg, List.length_nil]
    simp [isStale, unacked, found]
  | read candidate empty found =>
    rw [staleAhead, empty]
    rfl

theorem Picks.obtainable (picks : Picks context dispatcher pick) :
    Obtainable context dispatcher := by
  cases picks with
  | queued redelivery controller stored popped unacked found =>
    exact .inl ⟨redelivery, by simp [pop_next_bindings popped], by simp [isStale, unacked, found]⟩
  | read candidate empty found => exact .inr ⟨candidate, found⟩

/-- Whose turn it is after so many turns in which nothing is handed out. -/
def chosenAfter : Nat → SharedDispatcher → Option (Nat × Consumer)
  | 0, dispatcher => dispatcher.getNextAvailableConsumer.1
  | turns + 1, dispatcher => chosenAfter turns dispatcher.getNextAvailableConsumer.2

/-- Turns do not depend on the queue. -/
theorem chosen_after_queue (turns : Nat) (dispatcher : SharedDispatcher)
    (controller : RedeliveryController) :
    chosenAfter turns { dispatcher with redeliveryController := controller } =
      chosenAfter turns dispatcher := by
  have next : ∀ dispatcher : SharedDispatcher,
      getNextAvailableConsumer { dispatcher with redeliveryController := controller } =
        (dispatcher.getNextAvailableConsumer.1, { dispatcher.getNextAvailableConsumer.2 with
          redeliveryController := controller }) := by
    intro dispatcher
    unfold getNextAvailableConsumer
    dsimp only [orderedConsumers]
    split
    all_goals simp
  induction turns generalizing dispatcher with
  | zero => rw [chosenAfter, next, chosenAfter]
  | succ turns ih => rw [chosenAfter, next, chosenAfter, ih]

/-- The turns up to the one that counts: so many at most, everybody whose turn it is may
have more, and the last one can be sent a message. -/
structure Reaches (reader : SubscriptionReader) (count : Nat) (dispatcher : SharedDispatcher)
    (slots : ChannelSlots) : Prop where
  batch : staleAhead reader dispatcher < count
  ahead : ∀ turn < staleAhead reader dispatcher, ∃ consumer,
    chosenAfter turn dispatcher = some consumer ∧
      consumer.2.pendingAcks.bindings.length < dispatcher.maxUnackedMessages
  last : ∃ consumer, chosenAfter (staleAhead reader dispatcher) dispatcher = some consumer ∧
    CanTake dispatcher.maxUnackedMessages consumer.2
  room : slots.headD true = true

theorem Reaches.chosen {count : Nat}
    (reaches : Reaches context.reader count pass.dispatcher pass.slots) :
    ∃ consumer, Chosen pass consumer := by
  rcases Nat.eq_zero_or_pos (staleAhead context.reader pass.dispatcher) with first | some
  · obtain ⟨consumer, chosen, able⟩ := reaches.last
    rw [first] at chosen
    exact ⟨consumer, chosen, able.budget⟩
  · obtain ⟨consumer, chosen, budget⟩ := reaches.ahead 0 some
    exact ⟨consumer, chosen, budget⟩

/-- Once nothing stale is left, the turn that counts is this one. -/
theorem Attempt.reaches_iff {sent : Bool}
    (attempt : Attempt context pass consumer pick sent) (count : Nat) :
    Reaches context.reader (count + 1) pass.dispatcher pass.slots ↔ sent = true := by
  have first := attempt.picks.first
  rw [attempt.sends]
  constructor
  · rintro ⟨_, _, ⟨other, chosen, able⟩, room⟩
    rw [first] at chosen
    cases attempt.chosen.chosen.symm.trans chosen
    exact ⟨able, room⟩
  · rintro ⟨able, room⟩
    refine ⟨?_, ?_, ⟨consumer, ?_, able⟩, room⟩
    · rw [first]
      exact count.succ_pos
    · rw [first]
      nofun
    · rw [first]
      exact attempt.chosen.chosen

section

variable {redelivery : RedeliveryEntry} {controller : RedeliveryController}
  (popped : pass.dispatcher.redeliveryController.popNext = (some redelivery, controller))
  (gone : isStale context.reader redelivery = true)
include popped gone

/-- A stale entry that is dropped takes one turn. -/
theorem reaches_dropped_iff (chosen : Chosen pass consumer) (count : Nat) :
    Reaches context.reader (count + 1) pass.dispatcher pass.slots ↔
      Reaches context.reader count
        { (turned pass).dispatcher with redeliveryController := controller } pass.slots := by
  have fewer : staleAhead context.reader pass.dispatcher = staleAhead context.reader
      { (turned pass).dispatcher with redeliveryController := controller } + 1 := by
    rw [staleAhead, pop_next_bindings popped, List.takeWhile_cons_of_pos gone, List.length_cons]
    rfl
  have next : ∀ turns, chosenAfter turns
      { (turned pass).dispatcher with redeliveryController := controller } =
        chosenAfter (turns + 1) pass.dispatcher := by
    intro turns
    rw [chosen_after_queue, ← turned_dispatcher, chosenAfter]
  constructor
  · rintro ⟨batch, ahead, last, room⟩
    rw [fewer] at batch ahead last
    refine ⟨Nat.lt_of_succ_lt_succ batch, ?_, ?_, room⟩
    · intro turn before
      rw [next]
      exact ahead (turn + 1) (Nat.succ_lt_succ before)
    · rw [next]
      exact last
  · rintro ⟨batch, ahead, last, room⟩
    rw [next] at last
    refine ⟨fewer ▸ Nat.succ_lt_succ batch, ?_, fewer ▸ last, room⟩
    rw [fewer]
    intro turn before
    cases turn with
    | zero => exact ⟨consumer, chosen.chosen, chosen.budget⟩
    | succ turn => exact next turn ▸ ahead turn (Nat.lt_of_succ_lt_succ before)

theorem obtainable_dropped_iff :
    Obtainable context { (turned pass).dispatcher with redeliveryController := controller } ↔
      Obtainable context pass.dispatcher := by
  unfold Obtainable
  rw [pop_next_bindings popped]
  simp only [List.exists_mem_cons_iff, gone, Bool.true_eq_false, false_or]
  rfl

end

theorem rounds_deliver_iff (count : Nat) :
    pass.delivered.length < (rounds (dispatchRound context) count pass).state.delivered.length ↔
      Reaches context.reader count pass.dispatcher pass.slots ∧
        Obtainable context pass.dispatcher := by
  induction count generalizing pass with
  | zero => exact ⟨fun more => absurd more (lt_irrefl _), fun reaches => nomatch reaches.1.batch⟩
  | succ count ih =>
    have turn := dispatch_round_turn context pass
    rw [rounds]
    generalize dispatchRound context pass = round at turn
    cases turn with
    | nobody nobody =>
      refine ⟨fun more => absurd more (lt_irrefl _), fun reaches => ?_⟩
      obtain ⟨consumer, chosen⟩ := reaches.1.chosen
      exact absurd chosen (nobody consumer)
    | dropped consumer redelivery controller chosen popped gone =>
      rw [reaches_dropped_iff popped gone chosen, ← obtainable_dropped_iff popped gone]
      exact @ih { turned pass with
        dispatcher := { (turned pass).dispatcher with redeliveryController := controller } }
    | exhausted round nothing ends left =>
      rw [ends, left]
      exact ⟨fun more => absurd more (lt_irrefl _), fun reaches => absurd reaches.2 nothing⟩
    | handed consumer pick slots attempt =>
      rw [attempt.reaches_iff]
      refine ⟨fun _ => ⟨rfl, attempt.picks.obtainable⟩, fun _ => ?_⟩
      let holds : Pass SharedDispatcher → Prop := fun after =>
        pass.delivered.length < after.delivered.length
      have kept after : holds after → holds (dispatchRound context after).state :=
        fun between => between.trans_le (dispatch_round_turn context after).delivered.1
      apply rounds_state holds kept
      simp [holds]
    | bounced consumer pick unsent slots attempt =>
      rw [attempt.reaches_iff]
      exact ⟨fun more => absurd more (lt_irrefl _), fun reaches => nomatch reaches.1⟩

/-- What a batch counts is what it has handed out. -/
theorem rounds_progress (count : Nat) :
    (rounds (dispatchRound context) count pass).state.delivered.length + pass.progress =
      pass.delivered.length + (rounds (dispatchRound context) count pass).state.progress := by
  let holds : Pass SharedDispatcher → Prop := fun after =>
    after.delivered.length + pass.progress = pass.delivered.length + after.progress
  have kept after : holds after → holds (dispatchRound context after).state := by
    intro counted
    have := (dispatch_round_turn context after).delivered.2
    simp only [holds] at counted ⊢
    omega
  exact rounds_state holds kept count rfl

theorem next_batch_idle (idle : (dispatchMessagesBatch context pass).state.progress = 0)
    (rest : Pass SharedDispatcher → Round) :
    (nextBatch context pass).andThen rest = nextBatch context pass := by
  unfold nextBatch
  generalize dispatchMessagesBatch context pass = flow at idle
  cases flow with
  | fail failure last => rfl
  | next last | stop last =>
    have none : last.progress = 0 := idle
    simp only [none, if_true]
    rfl

/-- The first batch decides: one that hands out nothing ends the pass. -/
theorem dispatch_messages_deliver_iff (fueled : 0 < context.fuel) :
    pass.delivered.length < (dispatchMessages context pass).state.delivered.length ↔
      Reaches context.reader (min pass.dispatcher.totalAvailablePermits.toNat
          dispatcherMaxRoundRobinBatchSize) pass.dispatcher pass.slots ∧
        Obtainable context pass.dispatcher := by
  obtain ⟨fuel, isFuel⟩ := Nat.exists_eq_succ_of_ne_zero fueled.ne'
  let first : Pass SharedDispatcher := { pass with progress := 0 }
  by_cases spent : pass.dispatcher.totalAvailablePermits ≤ 0
  · have none : (dispatchMessages context pass).state = first := by
      simp [dispatchMessages, isFuel, rounds, nextBatch, dispatchMessagesBatch, spent, andThen,
        state, first]
    rw [none, Int.toNat_of_nonpos spent]
    refine ⟨fun more => absurd more (lt_irrefl _), fun reaches => ?_⟩
    exact absurd reaches.1.batch (by simp)
  let count := min pass.dispatcher.totalAvailablePermits.toNat dispatcherMaxRoundRobinBatchSize
  have isBatch : dispatchMessagesBatch context pass = rounds (dispatchRound context) count first :=
    if_neg spent
  have counted := @rounds_progress first context count
  have batchIff := @rounds_deliver_iff first context count
  rw [← isBatch] at counted batchIff
  refine Iff.trans ⟨?_, ?_⟩ batchIff
  · intro more
    by_contra nothing
    have idle : (dispatchMessagesBatch context pass).state.progress = 0 := by
      simp only [first] at counted nothing
      omega
    rw [dispatchMessages, isFuel, rounds, next_batch_idle idle, next_batch_state] at more
    exact nothing more
  · let holds : Pass SharedDispatcher → Prop := fun after =>
      pass.delivered.length < after.delivered.length
    have kept after : holds after → holds (dispatchRound context after).state :=
      fun between => between.trans_le (dispatch_round_turn context after).delivered.1
    intro more
    apply rounds_state_of_first holds
      (fun after => next_batch_keeps_rounds after (fun _ between => between) kept) fueled
    rw [next_batch_state]
    exact more

end PulsarLite.Broker.SharedDispatcher
