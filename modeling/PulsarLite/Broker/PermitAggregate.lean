import PulsarLite.Broker.CommonRun

/-!
# The aggregate of permits

The dispatchers with many consumers keep the sum of their consumers' permits. A
consumer may owe permits, since an entry of many messages needs one only; when it
leaves, what it owes stays in the aggregate.
-/

namespace PulsarLite.Broker.Subscription

open Library Storage OrderedMap DispatcherEnum List

def allPermits (consumers : OrderedMap Nat Consumer) : Int :=
  consumers.total Consumer.availablePermits

theorem all_permits_standings {consumers} :
    allPermits consumers = ((standings consumers).map fun standing => standing.2.1).sum := by
  rw [allPermits, total, standings, map_map]
  rfl

/-- The aggregate is exact, nobody owes more than one entry comes to, and neither one
consumer nor all of them leave the range of an `i32`. -/
structure Balanced (decode : Decode) (limit : Nat) (view : SubscriptionView)
    (common : MultipleConsumers) : Prop where
  batches : ∀ message ∈ view.messages, messagesInBatch decode message.metadata ≤ limit
  exact : common.totalAvailablePermits = allPermits common.consumers
  owes : ∀ consumer ∈ common.consumers.bindings,
    -((limit - 1 : Nat) : Int) ≤ consumer.2.availablePermits
  fits : ∀ consumer ∈ common.consumers.bindings, consumer.2.availablePermits < 2 ^ 31
  few : common.consumers.bindings.length * (limit - 1) ≤ 2 ^ 31
  bounded : allPermits common.consumers < 2 ^ 31

variable {decode : Decode} {limit : Nat} {view : SubscriptionView} {common : MultipleConsumers}
  {consumerId : Nat} {consumer : Consumer}

section

variable (balanced : Balanced decode limit view common)
include balanced

section

variable (member : (consumerId, consumer) ∈ common.consumers.bindings)
include member

theorem Balanced.others_owe :
    -(2 ^ 31) ≤ allPermits (common.consumers.erase consumerId) - ((limit - 1 : Nat) : Int) := by
  have owes other (isOther : other ∈ (common.consumers.erase consumerId).bindings) :
      -((limit - 1 : Nat) : Int) ≤ other.2.availablePermits :=
    balanced.owes other (mem_bindings_erase.mp isOther).2
  have others := total_ge owes
  have length := length_erase member
  have few : ((common.consumers.bindings.length * (limit - 1) : Nat) : Int) ≤ 2 ^ 31 :=
    Int.ofNat_le.mpr balanced.few
  rw [length] at few
  rw [Nat.cast_mul, Nat.cast_add, Nat.cast_one, add_mul, one_mul] at few
  rw [mul_neg] at others
  rw [allPermits]
  omega

theorem Balanced.one_owes : limit - 1 ≤ 2 ^ 31 := by
  have few := balanced.few
  rw [length_erase member, add_mul, one_mul] at few
  omega

theorem Balanced.split : common.totalAvailablePermits =
      consumer.availablePermits + allPermits (common.consumers.erase consumerId) := by
  rw [balanced.exact, allPermits, total_erase _ member, allPermits]

theorem Balanced.put {after : Consumer} {readPosition : Option ManagedLedgerPosition}
    {controller : RedeliveryController} (owes : -((limit - 1 : Nat) : Int) ≤ after.availablePermits)
    (fits : after.availablePermits < 2 ^ 31)
    (bounded : after.availablePermits + allPermits (common.consumers.erase consumerId) < 2 ^ 31) :
    Balanced decode limit view {
      consumers := common.consumers.insert consumerId after
      totalAvailablePermits :=
        after.availablePermits + allPermits (common.consumers.erase consumerId)
      readPosition := readPosition
      redeliveryController := controller } := by
  have known : consumerId ∈ common.consumers := mem_of_binding member
  have permits : allPermits (common.consumers.insert consumerId after) =
      after.availablePermits + allPermits (common.consumers.erase consumerId) :=
    total_insert _
  constructor
  · exact balanced.batches
  · exact permits.symm
  · intro other isOther
    rcases mem_bindings_insert.mp isOther with rfl | ⟨_, old⟩
    · exact owes
    · exact balanced.owes other old
  · intro other isOther
    rcases mem_bindings_insert.mp isOther with rfl | ⟨_, old⟩
    · exact fits
    · exact balanced.fits other old
  · rw [length_insert known]
    exact balanced.few
  · rw [permits]
    exact bounded

end

theorem Balanced.same {later after}
    (sameStandings : standings after.consumers = standings common.consumers)
    (sameTotal : after.totalAvailablePermits = common.totalAvailablePermits)
    (batches : ∀ message ∈ later.messages, messagesInBatch decode message.metadata ≤ limit) :
    Balanced decode limit later after := by
  have each : ∀ consumer ∈ after.consumers.bindings, ∃ old ∈ common.consumers.bindings,
      consumer.2.availablePermits = old.2.availablePermits := by
    intro consumer member
    obtain ⟨old, isOld, same⟩ := exists_standing sameStandings member
    exact ⟨old, isOld, (congrArg (fun standing => standing.2.1) same).symm⟩
  have length : after.consumers.bindings.length = common.consumers.bindings.length := by
    have mapped := congrArg List.length sameStandings
    rwa [standings, standings, length_map, length_map] at mapped
  have permits : allPermits after.consumers = allPermits common.consumers := by
    rw [all_permits_standings, sameStandings, ← all_permits_standings]
  constructor
  · exact batches
  · rw [sameTotal, permits]
    exact balanced.exact
  · intro consumer member
    obtain ⟨old, isOld, same⟩ := each consumer member
    exact same ▸ balanced.owes old isOld
  · intro consumer member
    obtain ⟨old, isOld, same⟩ := each consumer member
    exact same ▸ balanced.fits old isOld
  · rw [length]
    exact balanced.few
  · rw [permits]
    exact balanced.bounded

theorem Balanced.join (fresh : consumerId ∉ common.consumers) (new : consumer.availablePermits = 0)
    (few : (common.consumers.bindings.length + 1) * (limit - 1) ≤ 2 ^ 31) :
    Balanced decode limit view (common.putConsumer consumerId consumer) := by
  have permits : allPermits (common.consumers.insert consumerId consumer) =
      allPermits common.consumers := by
    rw [allPermits, total_insert_new _ fresh, new, zero_add, allPermits]
  constructor
  · exact balanced.batches
  · exact balanced.exact.trans permits.symm
  · intro other isOther
    rcases mem_bindings_insert.mp isOther with rfl | ⟨_, old⟩
    · dsimp only
      omega
    · exact balanced.owes other old
  · intro other isOther
    rcases mem_bindings_insert.mp isOther with rfl | ⟨_, old⟩
    · dsimp only
      omega
    · exact balanced.fits other old
  · rw [MultipleConsumers.putConsumer, OrderedMap.length_insert_new fresh]
    exact few
  · rw [MultipleConsumers.putConsumer, permits]
    exact balanced.bounded

variable (member : (consumerId, consumer) ∈ common.consumers.bindings)
include member

theorem Balanced.flow {permits : Nat} (fits : consumer.availablePermits + permits < 2 ^ 31)
    (bounded : allPermits common.consumers + permits < 2 ^ 31) :
    Balanced decode limit view { common with
      consumers := common.consumers.insert consumerId (consumer.addPermits permits)
      totalAvailablePermits := (common.addTotalPermits permits).totalAvailablePermits } := by
  have owes := balanced.owes _ member
  have others := balanced.others_owe member
  have total := balanced.split member
  have exact := balanced.exact
  have alone := balanced.one_owes member
  dsimp only at owes
  have added : (consumer.addPermits permits).availablePermits =
      consumer.availablePermits + permits := wrap_i32_of_fits (by omega) fits
  have summed : (common.addTotalPermits permits).totalAvailablePermits =
      (consumer.addPermits permits).availablePermits +
        allPermits (common.consumers.erase consumerId) := by
    have wraps : (common.addTotalPermits permits).totalAvailablePermits =
        common.totalAvailablePermits + permits := wrap_i32_of_fits (by omega) (by omega)
    rw [wraps, added]
    omega
  rw [summed]
  apply balanced.put member
  · rw [added]
    omega
  · rw [added]
    exact fits
  · rw [added]
    omega

theorem Balanced.left (paid : 0 ≤ consumer.availablePermits) (entries) :
    Balanced decode limit view (DispatcherEnum.Left common consumerId consumer entries) := by
  have others := balanced.others_owe member
  have total := balanced.split member
  have bounded := balanced.bounded
  have exact := balanced.exact
  constructor
  · exact balanced.batches
  · change max _ _ = allPermits (common.consumers.erase consumerId)
    dsimp only [Consumer.availablePermitsNow]
    omega
  · exact fun other isOther => balanced.owes other (mem_bindings_erase.mp isOther).2
  · exact fun other isOther => balanced.fits other (mem_bindings_erase.mp isOther).2
  · have few := balanced.few
    rw [length_erase member, add_mul] at few
    change (common.consumers.erase consumerId).bindings.length * (limit - 1) ≤ 2 ^ 31
    omega
  · change allPermits (common.consumers.erase consumerId) < 2 ^ 31
    omega

end

theorem Balanced.step {before after : Stage} (balanced : Balanced decode limit view before.common)
    (step : Stage.Step decode view before after) : Balanced decode limit view after.common := by
  -- what an entry costs never takes the consumer or the aggregate out of range
  have affords : ∀ {message : StoredMessage} {consumerId : Nat} {consumer : Consumer}
      {charge : Int}, message ∈ view.messages →
      (consumerId, consumer) ∈ before.common.consumers.bindings → 0 < consumer.availablePermits →
      before.Charged (messagesInBatch decode message.metadata) charge →
      -((limit - 1 : Nat) : Int) ≤
          consumer.availablePermits - messagesInBatch decode message.metadata ∧
        wrapI32 (consumer.availablePermits - messagesInBatch decode message.metadata) =
          consumer.availablePermits - messagesInBatch decode message.metadata ∧
        charge = consumer.availablePermits - messagesInBatch decode message.metadata +
          allPermits (before.common.consumers.erase consumerId) := by
    intro message consumerId consumer charge stored member positive charged
    have batch := balanced.batches message stored
    have fits := balanced.fits _ member
    have others := balanced.others_owe member
    have alone := balanced.one_owes member
    have total := balanced.split member
    have bounded := balanced.bounded
    have exact := balanced.exact
    dsimp only at fits
    refine ⟨by omega, wrap_i32_of_fits (by omega) (by omega), ?_⟩
    rcases charged with wraps | stays
    · have charge : charge = wrapI32 (before.common.totalAvailablePermits -
          messagesInBatch decode message.metadata) := wraps
      rw [charge, wrap_i32_of_fits (by omega) (by omega)]
      omega
    · have charge : charge = max (-(2 ^ 31)) (before.common.totalAvailablePermits -
          messagesInBatch decode message.metadata) := stays
      omega
  cases step with
  | adjusted => exact balanced.same rfl rfl balanced.batches
  | handed message consumerId consumer pending total readPosition controller count stored member
      positive charged =>
      obtain ⟨owes, wraps, isTotal⟩ := affords stored member positive charged
      have fits := balanced.fits _ member
      have split := balanced.split member
      have bounded := balanced.bounded
      have exact := balanced.exact
      dsimp only at fits
      rw [isTotal, wraps]
      apply balanced.put member
      · exact owes
      · dsimp only
        omega
      · dsimp only
        omega
  | bounced message consumerId consumer unsent charge readPosition controller stored member
      positive charged bounces refunded =>
      obtain ⟨owes, wraps, isCharge⟩ := affords stored member positive charged
      have fits := balanced.fits _ member
      have split := balanced.split member
      have bounded := balanced.bounded
      have exact := balanced.exact
      have others := balanced.others_owe member
      dsimp only at fits
      have back : unsent.availablePermits = consumer.availablePermits := by
        rw [refunded, wraps, wrap_i32_of_fits (by omega) (by omega)]
        omega
      have isTotal : wrapI32 (charge + messagesInBatch decode message.metadata) =
          unsent.availablePermits + allPermits (before.common.consumers.erase consumerId) := by
        rw [isCharge, wrap_i32_of_fits (by omega) (by omega), back]
        omega
      rw [isTotal]
      apply balanced.put member
      · omega
      · omega
      · omega

variable {site : SubscriptionSite} {partition : Int} {subType : SubscriptionType}
  {keySharedPolicy : Option KeySharedPolicy} {start state : Subscription}

/-- A consumer leaves only when it owes nothing; no entry has more messages than the
limit, and there are not so many consumers that together they could owe more than an
`i32` holds; permits are granted within the range of an `i32`. -/
def payingDebts (decode : Decode) (limit : Nat) : Conditions :=
  { Conditions.none with
    watch := fun view _ => ∀ message ∈ view.messages,
      messagesInBatch decode message.metadata ≤ limit
    joins := fun dispatcher _ =>
      (dispatcher.consumers.bindings.length + 1) * (limit - 1) ≤ 2 ^ 31
    leaves := fun dispatcher consumerId => ∀ consumer,
      dispatcher.consumers.find consumerId = some consumer → 0 ≤ consumer.availablePermits
    flows := fun dispatcher consumerId permits => ∀ consumer,
      dispatcher.consumers.find consumerId = some consumer →
        consumer.availablePermits + permits < 2 ^ 31 ∧
          allPermits dispatcher.consumers + permits < 2 ^ 31 }

theorem balanced_invariant (limit : Nat) :
    CommonInvariant site (payingDebts site.decode limit) fun view common _ =>
      Balanced site.decode limit view common where
  created := by
    intro view readPosition blockHashes watch _
    have none : (0 : Int) < 2 ^ 31 := by decide
    exact ⟨watch, rfl, fun _ absent => absurd absent not_mem_bindings_empty,
      fun _ absent => absurd absent not_mem_bindings_empty, by simp [OrderedMap.empty],
      none⟩
  changed := by
    intro view dispatcher common delivered rebuilt later after balanced isCommon change
    have everybody := multiple_consumers isCommon
    cases change with
    | published _ _ watch => exact balanced.same rfl rfl watch
    | joined permitted fresh =>
      apply balanced.join fresh rfl
      rw [← everybody]
      exact permitted
    | tuned _ tuned =>
      rcases tuned with ⟨same, isTotal⟩ | ⟨_, consumer, permits, permitted, member, rfl, rfl⟩
      · exact balanced.same same isTotal balanced.batches
      · dsimp only [payingDebts] at permitted
        rw [everybody] at permitted
        obtain ⟨fits, bounded⟩ := permitted consumer (find_eq_some.mpr member)
        exact balanced.flow member fits bounded
    | acked _ same _ _ _ _ _ _ watch => exact balanced.same same rfl watch
    | @returned consumerId consumer messageIds reader _ _ member =>
      have same := standings_put member
        ((take_for_redelivery_spec messageIds consumer).stands consumerId)
      exact balanced.same same rfl balanced.batches
    | left permitted member =>
      apply balanced.left member
      apply permitted
      rw [everybody]
      exact find_eq_some.mpr member
    | unknown => exact balanced
  stepped step _ balanced := balanced.step step

/-- The aggregate is the sum of the permits of the connected consumers. -/
def ExactAggregate (subscription : Subscription) : Prop :=
  ∀ dispatcher common, subscription.dispatcher = some dispatcher →
    dispatcher.multiple = some common →
    common.totalAvailablePermits = allPermits common.consumers

theorem aggregate_exact_while_debts_are_paid (limit : Nat)
    (isMultiple : subType = .shared ∨ subType = .keyShared)
    (started : Started site partition subType keySharedPolicy start)
    (watched : Watched site partition (payingDebts site.decode limit) start)
    (run : Run (handle site) (Permitted site partition (payingDebts site.decode limit))
      start state) : ExactAggregate state := by
  have invariant : Invariant site subType keySharedPolicy (payingDebts site.decode limit) _ :=
    (balanced_invariant limit).invariant isMultiple
  obtain ⟨view, sustains⟩ := invariant.run isMultiple started watched nofun run
  intro dispatcher common isDispatcher isCommon
  obtain ⟨_, _, other, isOther, _, balanced⟩ := sustains.busy dispatcher isDispatcher
  cases isOther.symm.trans isCommon
  exact balanced.exact

theorem sample_batch_watched (subscription) :
    Watched sampleSite (-1) (payingDebts sampleSite.decode 127) subscription :=
  fun _ _ message _ => sample_batch_count message.metadata

def sampleVisit (permits : Nat) : List Request :=
  [.publish [sampleBatch], .addConsumer 5 [] 0 none, .flow 5 permits, .dispatch [],
    .removeConsumer 5 []]

def sampleVisited (subType : SubscriptionType) (permits : Nat) : Subscription :=
  (sampleVisit permits).foldl (handle sampleSite) (sampleStart subType)

theorem sample_aggregate_exact : ExactAggregate (sampleVisited .keyShared 20) := by
  apply aggregate_exact_while_debts_are_paid 127 (.inr rfl) (sample_started .keyShared)
    (sample_batch_watched _)
  have few : (0 + 1) * (127 - 1) ≤ 2 ^ 31 := by decide
  apply Run.of_permits
  refine ⟨⟨⟨sample_batch_publishable, ?_⟩, sample_batch_watched _⟩, ⟨few, sample_batch_watched _⟩,
    ⟨?_, sample_batch_watched _⟩, ⟨trivial, sample_batch_watched _⟩,
    ⟨?_, sample_batch_watched _⟩, trivial⟩
  · rintro ledger ⟨⟩
    decide
  all_goals
    rintro dispatcher ⟨⟩ consumer ⟨⟩
    decide

/-- A consumer that leaves owing nine permits: nobody is connected, and the aggregate
is -9. -/
theorem debt_stays_in_the_aggregate :
    (∀ subType, subType = .shared ∨ subType = .keyShared →
      Started sampleSite (-1) subType none (sampleStart subType) ∧
      Run (handle sampleSite) (Permitted sampleSite (-1)
        { payingDebts sampleSite.decode 127 with leaves := fun _ _ => True })
        (sampleStart subType) (sampleVisited subType 1)) ∧
    ¬ ExactAggregate (sampleVisited .shared 1) ∧ ¬ ExactAggregate (sampleVisited .keyShared 1) := by
  refine ⟨?_, ?_, ?_⟩
  · intro subType isMultiple
    refine ⟨sample_started subType, ?_⟩
    have few : (0 + 1) * (127 - 1) ≤ 2 ^ 31 := by decide
    apply Run.of_permits
    refine ⟨⟨⟨sample_batch_publishable, ?_⟩, sample_batch_watched _⟩, ?_, ?_,
      ⟨trivial, sample_batch_watched _⟩, ⟨fun _ _ => trivial, sample_batch_watched _⟩, trivial⟩
    · rintro ledger ⟨⟩
      decide
    · rcases isMultiple with rfl | rfl
      all_goals exact ⟨few, sample_batch_watched _⟩
    refine ⟨?_, sample_batch_watched _⟩
    rcases isMultiple with rfl | rfl
    all_goals
      rintro dispatcher ⟨⟩ consumer ⟨⟩
      decide
  all_goals
    intro exact
    have zero := exact _ _ rfl rfl
    revert zero
    decide

end PulsarLite.Broker.Subscription
