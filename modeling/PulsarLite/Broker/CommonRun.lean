import PulsarLite.Broker.Requests
import PulsarLite.Broker.SharedPass

/-!
# Invariants of both dispatchers with many consumers

An invariant of what Shared and KeyShared have in common is checked once, against
the changes that requests make and the steps of passes, and holds along every run of
a subscription of either type.
-/

namespace PulsarLite.Broker

open Library Storage OrderedMap DispatcherEnum MultipleConsumers List

namespace DispatcherEnum

variable {dispatcher : DispatcherEnum} {common : MultipleConsumers}

theorem dispatch_messages_keeps {context view} {holds : Stage → Prop}
    (presents : Presents context.reader view)
    (kept : ∀ before after, Stage.Step context.decode view before after →
      before.common.Ready view → holds before → holds after)
    (isCommon : dispatcher.multiple = some common) (slots) {delivered}
    (ready : common.Ready view) (before : holds ⟨common, delivered⟩) :
    ∃ after, (dispatcher.dispatchMessages context slots delivered).2.1.multiple = some after ∧
      holds ⟨after, (dispatcher.dispatchMessages context slots delivered).2.2⟩ := by
  cases dispatcher with
  | exclusive | failover => cases isCommon
  | shared dispatcher =>
    cases isCommon
    exact ⟨_, rfl, (SharedDispatcher.dispatch_messages_keeps presents kept
      ⟨dispatcher, slots, delivered, 0⟩ ⟨ready, before⟩).2⟩
  | keyShared dispatcher =>
    cases isCommon
    let held : KeySharedDispatcher.Course → Prop := fun course => holds course.stage
    have moved before after : KeySharedDispatcher.Move context view before after →
        before.dispatcher.Ready view → held before → held after :=
      fun move ready between => kept _ _ (move.step presents.lined) ready between
    exact ⟨_, rfl, (KeySharedDispatcher.dispatch_messages_keeps presents moved
      ⟨dispatcher, slots, delivered, 0⟩ ⟨ready, before⟩).2⟩

end DispatcherEnum

namespace Subscription

/-- The read position can be read from, and what is pending is stored. -/
structure Rooted (view : SubscriptionView) (common : MultipleConsumers) : Prop where
  ready : common.Ready view
  stored : ∀ messageId, common.Pends messageId →
    ∃ message ∈ view.messages, message.messageId = messageId

variable {view : SubscriptionView} {common after : MultipleConsumers}

theorem Rooted.created {readPosition} (blockHashes : Bool)
    (reached : ∀ position, readPosition = some position → Reached view (fun _ => False) position) :
    Rooted view ⟨.empty, 0, readPosition, .new blockHashes⟩ where
  ready position isPosition := (reached position isPosition).readable
  stored _ held := by
    obtain ⟨_, absent, _⟩ := held
    exact absurd absent not_mem_bindings_empty

section

variable (rooted : Rooted view common)
include rooted

theorem Rooted.reached : ∀ position,
    common.readPosition = some position → Reached view (fun _ => True) position :=
  fun position isPosition => ⟨rooted.ready position isPosition, fun _ _ _ => Or.inr trivial⟩

theorem Rooted.grows {later} (grows : view.Grows later) : Rooted later common where
  ready position isPosition := ((rooted.reached position isPosition).grows grows).readable
  stored messageId pends := by
    obtain ⟨message, member, same⟩ := rooted.stored messageId pends
    obtain ⟨more, messages, _⟩ := grows.messages
    exact ⟨message, messages ▸ mem_append_left _ member, same⟩

theorem Rooted.fewer (same : after.readPosition = common.readPosition)
    (fewer : ∀ messageId, after.Pends messageId → common.Pends messageId) : Rooted view after where
  ready position isPosition := rooted.ready position (same ▸ isPosition)
  stored messageId pends := rooted.stored messageId (fewer messageId pends)

theorem Rooted.change {conditions : Conditions} {dispatcher : DispatcherEnum}
    {delivered : List Delivery} {rebuilt : Bool} {later : SubscriptionView}
    (change : Change conditions dispatcher delivered view common rebuilt later after) :
    Rooted later after := by
  cases change with
  | published grows => exact rooted.grows grows
  | joined =>
    apply rooted.fewer
    · rfl
    intro messageId pends
    rcases held_insert.mp pends with absent | ⟨holder, member, _, pending⟩
    · exact absurd absent not_mem_empty
    · exact ⟨holder, member, pending⟩
  | tuned thinned => exact rooted.fewer rfl fun _ pends => thinned.held pends
  | acked thinned _ reacked presents first =>
    have readable : ∀ position, common.readPosition = some position →
        Reached later (fun _ => True) position := fun position isPosition =>
      (rooted.reached position isPosition).reacked reacked (fun _ _ _ => Or.inr trivial)
        fun _ _ _ => Or.inr trivial
    constructor
    · exact fun position isPosition => (read_position_after_ack_reached presents
        first readable position isPosition).readable
    · intro messageId pends
      rw [reacked.messages]
      exact rooted.stored messageId (thinned.held pends)
  | @returned consumerId consumer messageIds reader _ _ member =>
    have thinned := (take_for_redelivery_spec messageIds consumer).thinned member
    exact rooted.fewer rfl fun _ pends => thinned.held pends
  | left => exact rooted.fewer rfl fun _ pends => Held.of_erase pends
  | unknown => exact rooted

end

theorem Rooted.step {decode before next} (rooted : Rooted view before.common)
    (step : Stage.Step decode view before next) : Rooted view next.common := by
  refine ⟨step.ready rooted.ready, ?_⟩
  cases step with
  | adjusted => exact rooted.stored
  | handed message consumerId consumer pending total readPosition controller count stored member =>
    intro messageId pends
    rcases (held_sent member).mp pends with rfl | before
    · exact ⟨message, stored, rfl⟩
    · exact rooted.stored messageId before
  | bounced message consumerId consumer unsent charge readPosition controller stored member
      positive charged bounces =>
      exact fun messageId pends => rooted.stored messageId (.of_fewer member bounces.fewer pends)

variable (site : SubscriptionSite) (conditions : Conditions)

/-- An invariant of what the dispatchers with many consumers have in common, beside
that it is rooted. -/
structure CommonInvariant
    (holds : SubscriptionView → MultipleConsumers → List Delivery → Prop) : Prop where
  created : ∀ {view readPosition} (blockHashes : Bool), conditions.watch view [] →
    (∀ position, readPosition = some position → Reached view (fun _ => False) position) →
    holds view ⟨.empty, 0, readPosition, .new blockHashes⟩ []
  changed : ∀ {view dispatcher common delivered rebuilt later after},
    holds view common delivered → dispatcher.multiple = some common →
    Change conditions dispatcher delivered view common rebuilt later after →
    holds later after delivered
  stepped : ∀ {view before after}, Stage.Step site.decode view before after → view.Lined →
    holds view before.common before.delivered → holds view after.common after.delivered

/-- A dispatcher with many consumers that is rooted and meets an invariant. -/
def MeetsCommon (holds : SubscriptionView → MultipleConsumers → List Delivery → Prop)
    (view : SubscriptionView) (dispatcher : DispatcherEnum) (delivered : List Delivery) : Prop :=
  ∃ common, dispatcher.multiple = some common ∧ Rooted view common ∧ holds view common delivered

variable {site conditions} {holds : SubscriptionView → MultipleConsumers → List Delivery → Prop}
  {subType : SubscriptionType} {keySharedPolicy : Option KeySharedPolicy}

theorem CommonInvariant.invariant (invariant : CommonInvariant site conditions holds)
    (isMultiple : subType = .shared ∨ subType = .keyShared) :
    Invariant site subType keySharedPolicy conditions (MeetsCommon holds) where
  multiple := by
    rintro view dispatcher delivered ⟨common, isCommon, _⟩
    exact ⟨common, isCommon⟩
  stored := by
    rintro view dispatcher delivered _ ⟨common, isCommon, rooted, _⟩ same
    cases isCommon.symm.trans same
    exact rooted.stored
  created := by
    intro view readPosition watch reached
    rcases isMultiple with rfl | rfl
    · exact ⟨_, rfl, Rooted.created false reached, invariant.created false watch reached⟩
    · exact ⟨_, rfl, Rooted.created _ reached, invariant.created _ watch reached⟩
  changed := by
    rintro view dispatcher delivered _ rebuilt later next after
      ⟨common, isCommon, rooted, held⟩ same
      change replaces
    cases isCommon.symm.trans same
    exact ⟨next, replaces.multiple, rooted.change change, invariant.changed held isCommon change⟩
  passed := by
    rintro view dispatcher delivered reader slots ⟨common, isCommon, rooted, held⟩ presents
    let context : DispatchContext := ⟨reader, site.decode, site.fuel⟩
    let keeps : Stage → Prop := fun stage =>
      Rooted view stage.common ∧ holds view stage.common stage.delivered
    have kept before after : Stage.Step context.decode view before after →
        before.common.Ready view → keeps before → keeps after :=
      fun step _ between => ⟨between.1.step step, invariant.stepped step presents.lined between.2⟩
    exact dispatch_messages_keeps presents kept isCommon slots rooted.ready
      ⟨rooted, held⟩

end Subscription

end PulsarLite.Broker
