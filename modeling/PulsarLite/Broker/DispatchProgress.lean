import PulsarLite.Broker.FlowControl
import PulsarLite.Broker.SharedProgress

/-!
# Shared subscriptions that make progress

Along every run the consumers of a Shared subscription stay in order, and there is a
position to read from. So what a pass needs besides is in the state that it starts
from: permits that the aggregate knows of, and nobody in the way.
-/

namespace PulsarLite.Broker.Subscription

open Library Storage MultipleConsumers Option OrderedMap SharedDispatcher

variable {site : SubscriptionSite} {partition : Int} {keySharedPolicy : Option KeySharedPolicy}
  {subscription start state : Subscription} {view later : SubscriptionView}

theorem ranked_of_standings {before after : OrderedMap Nat Consumer}
    (same : standings after = standings before) : Ranked before after := by
  have ranked := congrArg (List.map fun standing => (standing.1, standing.2.2)) same
  rw [standings, standings, List.map_map, List.map_map] at ranked
  exact ranked

theorem Change.ranked {conditions : Conditions} {dispatcher : DispatcherEnum}
    {delivered : List Delivery} {common after : MultipleConsumers}
    (change : Change conditions dispatcher delivered view common false later after) :
    Ranked common.consumers after.consumers := by
  cases change with
  | published => rfl
  | tuned _ tuned =>
    rcases tuned with ⟨same, _⟩ | ⟨_, _, _, _, member, rfl, _⟩
    · exact ranked_of_standings same
    · exact map_bindings_insert member rfl
  | acked _ same => exact ranked_of_standings same
  | @returned consumerId consumer messageIds _ _ _ member =>
    exact ranked_of_standings (standings_put member
      ((take_for_redelivery_spec messageIds consumer).stands consumerId))

/-- A Shared dispatcher that is rooted and whose consumers are in order. -/
def Seated (view : SubscriptionView) (dispatcher : DispatcherEnum) (_ : List Delivery) : Prop :=
  ∃ shared, dispatcher = .shared shared ∧ Rooted view shared.toMultipleConsumers ∧ Arranged shared

theorem seated_invariant : Invariant site .shared keySharedPolicy .none Seated where
  multiple := by
    rintro view _ delivered ⟨shared, rfl, _⟩
    exact ⟨_, rfl⟩
  stored := by
    rintro view _ delivered _ ⟨shared, rfl, rooted, _⟩ ⟨⟩
    exact rooted.stored
  created := by
    intro view readPosition _ reached
    exact ⟨_, rfl, .created false reached, Arranged.new.ranked rfl rfl⟩
  changed := by
    rintro view _ delivered _ rebuilt later next _ ⟨before, rfl, rooted, arranged⟩
      ⟨⟩ change replaces
    obtain ⟨after, rfl, reseats⟩ := replaces.seated before rfl
    cases replaces.multiple
    refine ⟨after, rfl, rooted.change change, ?_⟩
    cases reseats with
    | stays order => exact arranged.ranked order change.ranked
    | joins added => exact arranged.join added
    | leaves consumerId => exact arranged.leave consumerId
  passed := by
    rintro view _ delivered reader slots ⟨shared, rfl, rooted, arranged⟩ presents
    let context : DispatchContext := ⟨reader, site.decode, site.fuel⟩
    let held : Stage → Prop := fun stage => Rooted view stage.common
    have kept before after : Stage.Step context.decode view before after →
        before.common.Ready view → held before → held after := fun step _ rooted => rooted.step step
    obtain ⟨_, still⟩ := dispatch_messages_keeps presents kept ⟨shared, slots, delivered, 0⟩
      ⟨rooted.ready, rooted⟩
    exact ⟨_, rfl, still, dispatch_messages_arranged arranged⟩

theorem seated_run (started : Started site partition .shared keySharedPolicy start)
    (run : Run (handle site) (Permitted site partition .none) start state) :
    ∃ view, Sustains site partition .shared keySharedPolicy .none Seated state view :=
  seated_invariant.run (.inl rfl) started (fun _ _ => trivial) nofun run

/-- One pass over a Shared subscription delivers something, if only its loops are
given enough rounds. -/
def Delivers (site : SubscriptionSite) (slots : ChannelSlots) (subscription : Subscription) :
    Prop :=
  ∃ enough, ∀ fuel, enough ≤ fuel → subscription.delivered.length <
    (subscription.dispatchMessages { site with fuel := fuel } slots).delivered.length

theorem dispatch_delivers_iff {dispatcher : SharedDispatcher}
    (isDispatcher : state.dispatcher = some (.shared dispatcher)) {fuel : Nat} (fueled : 0 < fuel)
    (slots : ChannelSlots) :
    state.delivered.length <
        (state.dispatchMessages { site with fuel := fuel } slots).delivered.length ↔
      Reaches (state.reader site) (min dispatcher.totalAvailablePermits.toNat
          dispatcherMaxRoundRobinBatchSize) dispatcher slots ∧
        Obtainable (state.context { site with fuel := fuel }) dispatcher := by
  simp only [dispatchMessages, isDispatcher]
  exact @dispatch_messages_deliver_iff ⟨dispatcher, slots, state.delivered, 0⟩ _ fueled

/-- Consumer 7 has no permits, and 6 cannot be written to. -/
def sampleReady : List Request :=
  [.publish [sampleItem], .addConsumer 7 [] 0 none, .addConsumer 5 [] 0 none, .flow 5 10,
    .addConsumer 6 [] 1 none, .flow 6 10, .setWritable 6 false]

def sampleReadyDispatcher : SharedDispatcher :=
  match (samplePlay .shared sampleReady).dispatcher with
  | some (.shared dispatcher) => dispatcher
  | _ => SharedDispatcher.new

theorem sample_ready_run : Run (handle sampleSite) (Permitted sampleSite (-1) Conditions.none)
    (sampleStart .shared) (samplePlay .shared sampleReady) := by
  apply sample_run _ sample_publishable _ (by simp)
  rintro ledger ⟨⟩
  decide

/-- In every state that is reached, the next turn is somebody's who has permits, and
nobody's only if nobody has any. -/
theorem turn_is_somebodys (started : Started site partition .shared keySharedPolicy start)
    (run : Run (handle site) (Permitted site partition Conditions.none) start state)
    {dispatcher : SharedDispatcher} (isDispatcher : state.dispatcher = some (.shared dispatcher))
    (natural : ∀ consumer ∈ dispatcher.consumers.bindings, 0 ≤ consumer.2.priorityLevel) :
    (∀ chosen, dispatcher.getNextAvailableConsumer.1 = some chosen →
      chosen ∈ dispatcher.consumers.bindings ∧ 0 < chosen.2.availablePermits) ∧
    (dispatcher.getNextAvailableConsumer.1 = none →
      ∀ consumer ∈ dispatcher.consumers.bindings, consumer.2.availablePermits ≤ 0) := by
  refine ⟨(get_next_available_spec dispatcher).2, ?_⟩
  intro nobody consumer member
  by_contra positive
  obtain ⟨view, sustains⟩ := seated_run started run
  obtain ⟨_, _, _, ⟨⟩, _, arranged⟩ := sustains.busy _ isDispatcher
  obtain ⟨chosen, isChosen⟩ := arranged.turn natural member (not_le.mp positive)
  cases nobody.symm.trans isChosen

theorem sample_turn : (5, (Consumer.new [] 0 none).addPermits 10) ∈
    sampleReadyDispatcher.consumers.bindings ∧
      0 < ((Consumer.new [] 0 none).addPermits 10).availablePermits :=
  (turn_is_somebodys (sample_started .shared) sample_ready_run rfl (by decide)).1 _ rfl

def sampleDebt : List Request :=
  [.publish [sampleBatch], .addConsumer 5 [] 0 none, .flow 5 1, .dispatch [],
    .removeConsumer 5 [], .addConsumer 6 [] 0 none, .flow 6 5]

def sampleStarved : Subscription := samplePlay .shared sampleDebt

def sampleStarvedDispatcher : SharedDispatcher :=
  match sampleStarved.dispatcher with
  | some (.shared dispatcher) => dispatcher
  | _ => SharedDispatcher.new

end PulsarLite.Broker.Subscription
