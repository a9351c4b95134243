import PulsarLite.Broker.ServerCnx
import PulsarLite.Library.Rolls

/-!
# What a step of a connection registers

Topics and subscriptions are rooms that connections enter under numbers of their
choice. Whatever happens on a connection, it enters or leaves one room at most; and
`run` returns past the cleanup only where a frame or a command could not be decoded.
-/

namespace PulsarLite.Broker

open Library Storage List Roll Function BrokerService
open SubscriptionRecord (new)
open ServerCnx (consumers handleKeepAliveTick producers)

variable {change : ServerCnx → ServerCnx}

@[ext] structure Listing where
  producers : Roll TopicKey
  consumers : Roll Nat

namespace Registry

variable (registry : Registry) {broker : BrokerService} {event : CnxEvent}

def consumersAt (handle : Nat) : OrderedMap Nat Nat :=
  (registry.subscriptions[handle]?.map SubscriptionRecord.consumers).getD OrderedMap.empty

def listing : Listing where
  producers := {
    listed := fun key => (registry.broker.topicAt key).producers
    held := fun connection => (registry.connections connection).producers }
  consumers := {
    listed := registry.consumersAt
    held := fun connection => (registry.connections connection).consumers }

/-- The subscription that is asked to take a consumer: the one of the name, or the next
that is created. -/
def Asks (request : CommandSubscribe) (handle : Nat) : Prop :=
  ∃ key, (registry.broker.getOrCreateTopicAuto request.topic).1 = .concrete key ∧
    ((registry.broker.topicAt key).subscriptions request.subscription).getD
      registry.subscriptions.length = handle

/-- What the step of a connection makes of the listing. -/
inductive Effect (registry : Registry) (connection : Nat) (event : CnxEvent) : Listing → Prop
  | same : Effect registry connection event registry.listing
  | addProducer (topic producerId key written)
      (isEvent : event = .command (.producer topic producerId) written)
      (located : (registry.broker.getOrCreateTopicAuto topic).1 = .concrete key)
      (fresh : producerId ∉ (registry.connections connection).producers) :
      Effect registry connection event { registry.listing with
        producers := registry.listing.producers.enter connection key producerId }
  | removeProducer (key producerId)
      (held : registry.listing.producers.Holds connection producerId key) :
      Effect registry connection event { registry.listing with
        producers := registry.listing.producers.leave connection key producerId }
  | addConsumer (request cursorOpened written handle)
      (isEvent : event = .command (.subscribe request cursorOpened) written)
      (asked : registry.Asks request handle)
      (vacant : request.consumerId ∉ registry.listing.consumers.listed handle) :
      Effect registry connection event { registry.listing with
        consumers := registry.listing.consumers.enter connection handle request.consumerId }
  | removeConsumer (handle consumerId)
      (held : registry.listing.consumers.Holds connection consumerId handle) :
      Effect registry connection event { registry.listing with
        consumers := registry.listing.consumers.leave connection handle consumerId }

variable (connection : Nat) (registry : Registry)

theorem listing_of_broker
    (same : ∀ key, (broker.topicAt key).producers = (registry.broker.topicAt key).producers) :
    { registry with broker := broker }.listing = registry.listing := by
  apply Listing.ext
  · apply Roll.ext
    · funext key
      exact same key
    · rfl
  · rfl

theorem listing_of_auto (topic : Text) :
    { registry with broker := (registry.broker.getOrCreateTopicAuto topic).2 }.listing =
      registry.listing :=
  registry.listing_of_broker fun key => by rw [auto_topic_at]

def KeepsMaps (change : ServerCnx → ServerCnx) : Prop :=
  ∀ cnx, (change cnx).producers = cnx.producers ∧ (change cnx).consumers = cnx.consumers

theorem listing_modify_cnx (keeps : KeepsMaps change) :
    (registry.modifyCnx connection change).listing = registry.listing := by
  apply Listing.ext
  · apply Roll.ext
    · rfl
    · change producers ∘ update registry.connections connection _ = _
      rw [comp_update, (keeps _).1]
      exact update_eq_self connection registry.listing.producers.held
  apply Roll.ext
  · rfl
  · change consumers ∘ update registry.connections connection _ = _
    rw [comp_update, (keeps _).2]
    exact update_eq_self connection registry.listing.consumers.held

theorem listing_modify_producers (key : TopicKey)
    (onTopic : Topic → Topic) (onMap : OrderedMap Nat TopicKey → OrderedMap Nat TopicKey)
    (same : broker.topicAt = registry.broker.topicAt) :
    (modifyCnx connection (.modifyProducers onMap)
        { registry with broker := broker.modifyTopic key onTopic }).listing =
      { registry.listing with
        producers := {
          listed := update registry.listing.producers.listed key
            (onTopic (registry.broker.topicAt key)).producers
          held := update registry.listing.producers.held connection
            (onMap (registry.listing.producers.held connection)) } } := by
  apply Listing.ext
  · apply Roll.ext
    · change Topic.producers ∘ update broker.topicAt key (onTopic (broker.topicAt key)) = _
      rw [comp_update, same]
      rfl
    · exact comp_update producers registry.connections connection _
  apply Roll.ext
  · rfl
  · change consumers ∘ update registry.connections connection _ = _
    rw [comp_update]
    exact update_eq_self connection registry.listing.consumers.held

theorem listing_modify_consumers (subscriptions) (onMap : OrderedMap Nat Nat → OrderedMap Nat Nat) :
    (modifyCnx connection (.modifyConsumers onMap)
        { registry with subscriptions := subscriptions }).listing =
      { registry.listing with
        consumers := {
          listed := { registry with subscriptions := subscriptions }.consumersAt
          held := update registry.listing.consumers.held connection
            (onMap (registry.listing.consumers.held connection)) } } := by
  apply Listing.ext
  · apply Roll.ext
    · rfl
    · change producers ∘ update registry.connections connection _ = _
      rw [comp_update]
      exact update_eq_self connection registry.listing.producers.held
  · apply Roll.ext
    · rfl
    · exact comp_update consumers registry.connections connection _

theorem consumers_at_set {handle record} (known : registry.subscriptions[handle]? = some record)
    (replaced : SubscriptionRecord) :
    { registry with subscriptions := registry.subscriptions.set handle replaced }.consumersAt =
      update registry.consumersAt handle replaced.consumers := by
  have bound : handle < registry.subscriptions.length := (List.getElem?_eq_some_iff.mp known).1
  funext other
  by_cases isHandle : other = handle
  · subst isHandle
    rw [update_self, consumersAt, getElem?_set_self bound]
    rfl
  · rw [update_of_ne isHandle, consumersAt, getElem?_set_ne (fun same => isHandle same.symm)]
    rfl

theorem consumers_at_remove (handle consumerId : Nat) :
    (Registry.mk registry.broker (registry.subscriptions.modify handle
        (.removeConsumer consumerId)) registry.connections).consumersAt =
      update registry.consumersAt handle
        ((registry.consumersAt handle).erase consumerId) := by
  funext other
  rw [consumersAt, getElem?_modify]
  by_cases isHandle : other = handle
  · subst isHandle
    rw [update_self, consumersAt]
    cases registry.subscriptions[other]? with
    | none => rfl
    | some record => simp [SubscriptionRecord.removeConsumer]
  rw [update_of_ne isHandle, consumersAt]
  cases registry.subscriptions[other]? with
  | none => rfl
  | some record =>
    have distinct : handle ≠ other := fun same => isHandle same.symm
    simp [distinct]

variable {connection registry} in
theorem modify_cnx_phase (other : Nat) (keeps : ∀ cnx, (change cnx).phase = cnx.phase) :
    ((registry.modifyCnx connection change).connections other).phase =
      (registry.connections other).phase := by
  by_cases isConnection : other = connection
  · subst isConnection
    simp only [modifyCnx, update_self, keeps]
  · simp only [modifyCnx, update_of_ne isConnection]

/-- What a command or a step of the cleanup makes of the registry. -/
structure Handled (event : CnxEvent) (after : Registry) : Prop where
  effect : registry.Effect connection event after.listing
  phase : ∀ other, (after.connections other).phase = (registry.connections other).phase

theorem Handled.refl (event : CnxEvent) : Handled connection registry event registry :=
  ⟨.same, fun _ => rfl⟩

theorem register_producer_handled (topic : Text) (producerId written) :
    Handled connection registry (.command (.producer topic producerId) written)
      (registry.registerProducer connection topic producerId).2 := by
  have unchanged := auto_topic_at topic registry.broker
  have quiet := registry.listing_of_auto topic
  unfold registerProducer
  by_cases known : producerId ∈ (registry.connections connection).producers
  · rw [if_pos known]
    exact .refl ..
  rw [if_neg known]
  cases located : registry.broker.getOrCreateTopicAuto topic with
  | mk found broker =>
    rw [located] at unchanged quiet
    cases found with
    | partitioned => exact ⟨quiet ▸ .same, fun _ => rfl⟩
    | concrete key =>
      refine ⟨?_, fun other => modify_cnx_phase other fun _ => rfl⟩
      rw [listing_modify_producers connection registry key _ _ unchanged]
      exact .addProducer topic producerId key written rfl (by rw [located]) known

theorem remove_producer_handled (producerId : Nat) (event : CnxEvent) :
    Handled connection registry event (registry.removeProducer connection producerId) := by
  unfold removeProducer
  cases held : (registry.connections connection).producers.find producerId with
  | none => exact .refl ..
  | some key =>
    refine ⟨?_, fun other => modify_cnx_phase other fun _ => rfl⟩
    rw [listing_modify_producers connection registry key _ _ rfl]
    exact .removeProducer key producerId (OrderedMap.find_eq_some.mp held)

theorem get_or_create_subscription_connections (key request cursorOpened) :
    (registry.getOrCreateSubscription key request cursorOpened).2.connections =
      registry.connections := by
  unfold getOrCreateSubscription
  cases (registry.broker.topicAt key).subscriptions request.subscription with
  | some handle => rfl
  | none => cases runtimeModeFromTopicName key.name <;> cases cursorOpened <;> rfl

theorem get_or_create_subscription_listing (key request cursorOpened) :
    (registry.getOrCreateSubscription key request cursorOpened).2.listing = registry.listing := by
  unfold getOrCreateSubscription
  cases (registry.broker.topicAt key).subscriptions request.subscription with
  | some handle => rfl
  | none =>
    have created : (Registry.mk (registry.broker.modifyTopic key fun topic => { topic with
          subscriptions := update topic.subscriptions request.subscription
            (some registry.subscriptions.length) })
        (registry.subscriptions ++ [new key.name request.subscription
          (subscriptionTypeOf request.subType) request.keySharedPolicy])
        registry.connections).listing = registry.listing := by
      apply Listing.ext
      · apply Roll.ext
        · funext other
          by_cases isKey : other = key
          · subst isKey
            simp only [listing, modifyTopic, update_self]
          · simp only [listing, modifyTopic, update_of_ne isKey]
        · rfl
      apply Roll.ext
      · funext handle
        simp only [listing, consumersAt]
        obtain below | rfl | above := Nat.lt_trichotomy handle registry.subscriptions.length
        · rw [getElem?_append_left below]
        · simp [new]
        · rw [getElem?_eq_none (by simp; omega), getElem?_eq_none (by omega)]
      · rfl
    cases runtimeModeFromTopicName key.name <;> cases cursorOpened <;>
      first | exact created | rfl

theorem get_or_create_subscription_handle {key request cursorOpened handle after}
    (made : registry.getOrCreateSubscription key request cursorOpened = (.ok handle, after)) :
    ((registry.broker.topicAt key).subscriptions request.subscription).getD
      registry.subscriptions.length = handle := by
  unfold getOrCreateSubscription at made
  cases existing : (registry.broker.topicAt key).subscriptions request.subscription with
  | some known =>
    rw [existing] at made
    exact Except.ok.inj (congrArg Prod.fst made)
  | none =>
    rw [existing] at made
    cases mode : runtimeModeFromTopicName key.name <;> rw [mode] at made <;>
      cases cursorOpened <;> first | exact Except.ok.inj (congrArg Prod.fst made) | cases made

theorem join_listing (handle request) :
    ((registry.join connection handle request).2.listing = registry.listing ∨
      request.consumerId ∉ registry.listing.consumers.listed handle ∧
      (registry.join connection handle request).2.listing = { registry.listing with
        consumers := registry.listing.consumers.enter connection handle request.consumerId }) ∧
    ∀ other, ((registry.join connection handle request).2.connections other).phase =
      (registry.connections other).phase := by
  unfold join
  cases known : registry.subscriptions[handle]? with
  | none => exact ⟨.inl rfl, fun _ => rfl⟩
  | some record =>
    dsimp only
    unfold SubscriptionRecord.addConsumer
    cases admitted : record.admission request.consumerId request.keySharedPolicy with
    | error message => exact ⟨.inl rfl, fun _ => rfl⟩
    | ok _ =>
      have consumers : registry.listing.consumers.listed handle = record.consumers := by
        change registry.consumersAt handle = _
        rw [consumersAt, known]
        rfl
      refine ⟨.inr ⟨?_, ?_⟩, fun other => modify_cnx_phase other fun _ => rfl⟩
      · rw [consumers]
        exact SubscriptionRecord.not_mem_of_admitted admitted
      · simp only [Except.map]
        rw [listing_modify_consumers, registry.consumers_at_set known, Roll.enter, consumers]
        rfl

theorem register_consumer_handled (request cursorOpened written) :
    Handled connection registry (.command (.subscribe request cursorOpened) written)
      (registry.registerConsumer connection request cursorOpened).2 := by
  have unchanged := auto_topic_at request.topic registry.broker
  have quiet := registry.listing_of_auto request.topic
  unfold registerConsumer
  cases located : registry.broker.getOrCreateTopicAuto request.topic with
  | mk found broker =>
    rw [located] at unchanged quiet
    cases found with
    | partitioned => exact ⟨quiet ▸ .same, fun _ => rfl⟩
    | concrete key =>
      dsimp only
      have created := get_or_create_subscription_listing { registry with broker := broker } key
        request cursorOpened
      have same := get_or_create_subscription_connections { registry with broker := broker } key
        request cursorOpened
      cases made : getOrCreateSubscription key request cursorOpened
          { registry with broker := broker } with
      | mk result after =>
        rw [made] at created same
        rw [quiet] at created
        have phase other : (after.connections other).phase = (registry.connections other).phase :=
          congrArg (fun connections => (connections other).phase) same
        cases result with
        | error message => exact ⟨created ▸ .same, phase⟩
        | ok handle =>
          dsimp only
          obtain ⟨joins, phases⟩ := join_listing connection after handle request
          refine ⟨?_, fun other => (phases other).trans (phase other)⟩
          rcases joins with same | ⟨vacant, joined⟩
          · rw [same, created]
            exact .same
          rw [joined, created]
          rw [created] at vacant
          apply Effect.addConsumer request cursorOpened written handle rfl _ vacant
          have asked := get_or_create_subscription_handle _ made
          rw [unchanged] at asked
          exact ⟨key, by rw [located], asked⟩

theorem remove_consumer_handled (consumerId event) :
    Handled connection registry event (registry.removeConsumer connection consumerId) := by
  unfold removeConsumer
  cases held : (registry.connections connection).consumers.find consumerId with
  | none => exact .refl ..
  | some handle =>
    refine ⟨?_, fun other => modify_cnx_phase other fun _ => rfl⟩
    rw [listing_modify_consumers, registry.consumers_at_remove]
    exact .removeConsumer handle consumerId (OrderedMap.find_eq_some.mp held)

theorem forget_subscription_listing (record) :
    (registry.forgetSubscription record).listing = registry.listing := by
  unfold forgetSubscription
  cases registry.broker.getTopic record.topic with
  | none => rfl
  | some key =>
    apply listing_of_broker
    intro other
    by_cases isKey : other = key
    · subst isKey
      simp only [modifyTopic, update_self, Topic.removeSubscription]
    · simp only [modifyTopic, update_of_ne isKey]

theorem unsubscribe_handled (consumerId cursorDeleted event) : Handled connection registry event
      (registry.unsubscribe connection consumerId cursorDeleted).2 := by
  have removed := remove_consumer_handled connection registry consumerId event
  unfold unsubscribe
  cases ((registry.connections connection).consumers.find consumerId).bind fun handle =>
      registry.subscriptions[handle]? with
  | none => exact .refl ..
  | some record =>
    have forgotten (registry : Registry) :
        (registry.forgetSubscription record).connections = registry.connections := by
      unfold forgetSubscription
      cases registry.broker.getTopic record.topic <;> rfl
    dsimp only
    cases record.runtimeMode <;> cases cursorDeleted <;> dsimp only <;>
      first
      | exact removed
      | refine ⟨?_, ?_⟩
        · rw [forget_subscription_listing]
          exact removed.effect
        · rw [forgotten]
          exact removed.phase

theorem reply_registry (written outcome) : (reply written outcome).2 = outcome.2 := by
  obtain ⟨result, registry⟩ := outcome
  cases result <;> rfl

theorem handle_connect_handled (protocolVersion written event) : Handled connection registry event
      (registry.handleConnect connection protocolVersion written).2 := by
  unfold handleConnect
  cases written with
  | error | ok =>
    dsimp only
    refine ⟨?_, fun other => modify_cnx_phase other fun _ => rfl⟩
    rw [listing_modify_cnx]
    · exact .same
    · exact fun _ => ⟨rfl, rfl⟩

theorem handle_command_handled (command written) :
    Handled connection registry (.command command written)
      (registry.handleCommand connection command written).2 := by
  unfold handleCommand
  dsimp only
  split_ifs
  · exact .refl ..
  · exact .refl ..
  cases command with
  | connect protocolVersion =>
    exact handle_connect_handled connection registry protocolVersion written _
  | producer topic producerId =>
    dsimp only
    rw [reply_registry]
    exact register_producer_handled connection registry topic producerId written
  | closeProducer producerId => exact remove_producer_handled connection registry producerId _
  | subscribe request cursorOpened =>
    rw [reply_registry]
    exact register_consumer_handled connection registry request cursorOpened written
  | closeConsumer consumerId => exact remove_consumer_handled connection registry consumerId _
  | unsubscribe consumerId cursorDeleted =>
    dsimp only
    rw [reply_registry]
    exact unsubscribe_handled connection registry consumerId cursorDeleted _
  | ping | pong | other => exact .refl ..

variable {registry : Registry} {connection : Nat} {after : Listing}

theorem Effect.of_modify_cnx
    (effect : (registry.modifyCnx connection change).Effect connection event after)
    (keeps : KeepsMaps change) : registry.Effect connection event after := by
  have same := listing_modify_cnx connection registry keeps
  have maps : ((registry.modifyCnx connection change).connections connection).producers =
      (registry.connections connection).producers :=
    congrArg (fun listing => listing.producers.held connection) same
  cases effect with
  | same =>
    rw [same]
    exact .same
  | addProducer topic producerId key written isEvent located fresh =>
    rw [same]
    rw [maps] at fresh
    exact .addProducer topic producerId key written isEvent located fresh
  | removeProducer key producerId held =>
    rw [same] at held ⊢
    exact .removeProducer key producerId held
  | addConsumer request cursorOpened written handle isEvent asked vacant =>
    rw [same] at vacant ⊢
    exact .addConsumer request cursorOpened written handle isEvent asked vacant
  | removeConsumer handle consumerId held =>
    rw [same] at held ⊢
    exact .removeConsumer handle consumerId held

theorem effect_modify_cnx (keeps : KeepsMaps change) :
    registry.Effect connection event (registry.modifyCnx connection change).listing := by
  rw [listing_modify_cnx _ _ keeps]
  exact .same

theorem after_result_maps (result) : KeepsMaps (.afterResult result) := by
  intro cnx
  cases result <;> exact ⟨rfl, rfl⟩

theorem keep_alive_tick_maps (handshakeTimedOut written) :
    KeepsMaps (handleKeepAliveTick handshakeTimedOut written) := by
  intro cnx
  unfold handleKeepAliveTick ServerCnx.startConnectionLivenessCheck
  cases cnx.state <;> cases written <;> dsimp only <;> (try split_ifs) <;> exact ⟨rfl, rfl⟩

theorem check_timeout_maps : KeepsMaps .handleConnectionCheckTimeout := by
  intro cnx
  unfold ServerCnx.handleConnectionCheckTimeout
  rcases cnx.connectionCheckInProgress with _ | reason
  · exact ⟨rfl, rfl⟩
  · cases reason <;> exact ⟨rfl, rfl⟩

theorem receive_effect (command written) : registry.Effect connection (.command command written)
      (registry.receive connection command written).listing := by
  unfold receive
  rw [listing_modify_cnx _ _ (after_result_maps _)]
  have inbound : (registry.modifyCnx connection .markInboundActivity).Effect connection
      (.command command written) (handleCommand connection command written
        (registry.modifyCnx connection .markInboundActivity)).2.listing :=
    (handle_command_handled connection _ command written).effect
  apply inbound.of_modify_cnx
  exact fun _ => ⟨rfl, rfl⟩

theorem loop_step_effect (event : CnxEvent) :
    registry.Effect connection event (registry.loopStep connection event).listing := by
  cases event with
  | endOfStream | frameError | undecodableCommand =>
    apply effect_modify_cnx
    exact fun _ => ⟨rfl, rfl⟩
  | command command written => exact receive_effect command written
  | appendsCompleted result | messagesWritten result =>
    exact effect_modify_cnx (after_result_maps result)
  | keepAliveTick handshakeTimedOut written =>
    exact effect_modify_cnx (keep_alive_tick_maps handshakeTimedOut written)
  | connectionCheckDeadline => exact effect_modify_cnx check_timeout_maps
  | drainProducer | drainConsumer | cleanupDone => exact .same

theorem cleanup_step_effect (event : CnxEvent) :
    registry.Effect connection event (registry.cleanupStep connection event).listing := by
  unfold cleanupStep
  cases event with
  | drainProducer producerId =>
    exact (remove_producer_handled connection registry producerId _).effect
  | drainConsumer consumerId =>
    dsimp only
    split_ifs
    · exact (remove_consumer_handled connection registry consumerId _).effect
    · exact .same
  | cleanupDone =>
    dsimp only
    split_ifs
    · apply effect_modify_cnx
      exact fun _ => ⟨rfl, rfl⟩
    · exact .same
  | _ => exact .same

theorem Effect.held_empty {other : Nat} (effect : registry.Effect connection event after)
    (quiet : other = connection → ∀ command written, event ≠ .command command written)
    (noProducers : (registry.connections other).producers.bindings = [])
    (noConsumers : (registry.connections other).consumers.bindings = []) :
    (after.producers.held other).bindings = [] ∧ (after.consumers.held other).bindings = [] := by
  by_cases isConnection : other = connection
  · subst isConnection
    cases effect with
    | same => exact ⟨noProducers, noConsumers⟩
    | addProducer topic producerId key written isEvent => exact absurd isEvent (quiet rfl _ _)
    | removeProducer key producerId held =>
      change _ ∈ (registry.connections other).producers.bindings at held
      rw [noProducers] at held
      exact absurd held not_mem_nil
    | addConsumer request cursorOpened written handle isEvent =>
      exact absurd isEvent (quiet rfl _ _)
    | removeConsumer handle consumerId held =>
      change _ ∈ (registry.connections other).consumers.bindings at held
      rw [noConsumers] at held
      exact absurd held not_mem_nil
  · cases effect with
    | same => exact ⟨noProducers, noConsumers⟩
    | addProducer | removeProducer =>
      refine ⟨?_, noConsumers⟩
      simp only [enter, leave, update_of_ne isConnection]
      exact noProducers
    | addConsumer | removeConsumer =>
      refine ⟨noProducers, ?_⟩
      simp only [enter, leave, update_of_ne isConnection]
      exact noConsumers

theorem step_effect (registry : Registry) (next : Step) :
    registry.Effect next.connection next.event (registry.step next).listing := by
  unfold step
  cases (registry.connections next.connection).phase with
  | running => exact loop_step_effect next.event
  | cleaning => exact cleanup_step_effect next.event
  | returned => exact .same

variable {other : Nat}

theorem modify_cnx_returned (stays : ∀ cnx, (change cnx).phase = .returned → cnx.phase = .returned)
    (returned : ((registry.modifyCnx connection change).connections other).phase = .returned) :
    (registry.connections other).phase = .returned := by
  by_cases isConnection : other = connection
  · subst isConnection
    simp only [modifyCnx, update_self] at returned
    exact stays _ returned
  · simpa only [modifyCnx, update_of_ne isConnection] using returned

theorem after_result_returned (result) (cnx : ServerCnx)
    (returned : (cnx.afterResult result).phase = .returned) : cnx.phase = .returned := by
  cases result with
  | ok _ => exact returned
  | error message => cases returned

theorem keep_alive_tick_returned (handshakeTimedOut written) (cnx : ServerCnx)
    (returned : (cnx.handleKeepAliveTick handshakeTimedOut written).phase = .returned) :
    cnx.phase = .returned := by
  unfold handleKeepAliveTick ServerCnx.startConnectionLivenessCheck at returned
  cases state : cnx.state <;> cases written <;> rw [state] at returned <;>
    dsimp only at returned <;> (try split_ifs at returned) <;>
      first | exact returned | cases returned

theorem check_timeout_returned (cnx : ServerCnx)
    (returned : cnx.handleConnectionCheckTimeout.phase = .returned) : cnx.phase = .returned := by
  unfold ServerCnx.handleConnectionCheckTimeout at returned
  rcases check : cnx.connectionCheckInProgress with _ | reason
  · rw [check] at returned
    exact returned
  · rw [check] at returned
    cases reason <;> cases returned

theorem receive_returned (command written)
    (returned : ((registry.receive connection command written).connections other).phase =
      .returned) :
    (registry.connections other).phase = .returned := by
  have handled := modify_cnx_returned (after_result_returned _) returned
  have inbound : ∀ cnx : ServerCnx, cnx.markInboundActivity.phase = cnx.phase := fun _ => rfl
  rw [(handle_command_handled ..).phase, modify_cnx_phase other inbound] at handled
  exact handled

theorem loop_step_returned
    (returned : ((registry.loopStep connection event).connections other).phase = .returned) :
    (registry.connections other).phase = .returned ∨
      other = connection ∧ (event = .frameError ∨ event = .undecodableCommand) := by
  by_cases isConnection : other = connection
  · cases event with
    | endOfStream =>
      subst isConnection
      simp [loopStep, modifyCnx, ServerCnx.leaveLoop] at returned
    | frameError => exact .inr ⟨isConnection, .inl rfl⟩
    | undecodableCommand => exact .inr ⟨isConnection, .inr rfl⟩
    | command command written => exact .inl (receive_returned command written returned)
    | appendsCompleted result | messagesWritten result =>
      exact .inl (modify_cnx_returned (after_result_returned result) returned)
    | keepAliveTick handshakeTimedOut written =>
      exact .inl (modify_cnx_returned (keep_alive_tick_returned handshakeTimedOut written) returned)
    | connectionCheckDeadline =>
      exact .inl (modify_cnx_returned check_timeout_returned returned)
    | drainProducer | drainConsumer | cleanupDone => exact .inl returned
  · left
    have untouched change : (registry.modifyCnx connection change).connections other =
        registry.connections other := by
      simp only [modifyCnx, update_of_ne isConnection]
    cases event with
    | command command written => exact receive_returned command written returned
    | drainProducer | drainConsumer | cleanupDone => exact returned
    | _ =>
      simp only [loopStep, untouched] at returned
      exact returned

theorem cleanup_step_returned
    (returned : ((registry.cleanupStep connection event).connections other).phase = .returned) :
    (registry.connections other).phase = .returned ∨
      other = connection ∧ event = .cleanupDone ∧
        (registry.connections other).producers.bindings = [] ∧
        (registry.connections other).consumers.bindings = [] := by
  unfold cleanupStep at returned
  cases event with
  | drainProducer producerId =>
    rw [(remove_producer_handled connection registry producerId (.drainProducer producerId)).phase]
      at returned
    exact .inl returned
  | drainConsumer consumerId =>
    dsimp only at returned
    split_ifs at returned
    · rw [(remove_consumer_handled connection registry consumerId .cleanupDone).phase] at returned
      exact .inl returned
    · exact .inl returned
  | cleanupDone =>
    dsimp only at returned
    split_ifs at returned with done
    · by_cases isConnection : other = connection
      · subst isConnection
        rw [Bool.and_eq_true, List.isEmpty_iff, List.isEmpty_iff] at done
        exact .inr ⟨rfl, rfl, done⟩
      · left
        simpa only [modifyCnx, update_of_ne isConnection] using returned
    · exact .inl returned
  | _ => exact .inl returned

theorem step_returned {next : Step}
    (returned : ((registry.step next).connections other).phase = .returned) :
    (registry.connections other).phase = .returned ∨
      other = next.connection ∧ (next.event = .frameError ∨ next.event = .undecodableCommand) ∨
      other = next.connection ∧ next.event = .cleanupDone ∧
        (registry.connections other).producers.bindings = [] ∧
        (registry.connections other).consumers.bindings = [] := by
  unfold step at returned
  cases phase : (registry.connections next.connection).phase with
  | running =>
    rw [phase] at returned
    rcases loop_step_returned returned with before | broken
    · exact .inl before
    · exact .inr (.inl broken)
  | cleaning =>
    rw [phase] at returned
    rcases cleanup_step_returned returned with before | done
    · exact .inl before
    · exact .inr (.inr done)
  | returned =>
    rw [phase] at returned
    exact .inl returned

def sampleBroker : Registry := .start (fun _ => none) 0

def onCnx (connection : Nat) (command : Command) : Step :=
  ⟨connection, .command command (.ok ())⟩

def sampleProducer (producerId : Nat) : Command :=
  .producer "persistent://public/default/orders".toList producerId

def sampleSubscribe (subscription : Text) (consumerId : Nat) : Command :=
  .subscribe {
    topic := "persistent://public/default/orders".toList
    subscription := subscription
    subType := 1
    consumerId := consumerId
    keySharedPolicy := none } (.ok ())

end Registry

end PulsarLite.Broker
