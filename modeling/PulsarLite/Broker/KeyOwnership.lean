import PulsarLite.Broker.KeySharedRun

/-!
# Who owns a key

With AutoSplit the consumers divide the hashes among them anew whenever one joins
or leaves. A consumer that loses a share keeps the messages it holds, and the new
owner is handed others with the same key. As long as nobody loses a hash that it
has pending messages of, no key is at two consumers.
-/

namespace PulsarLite.Broker.KeySharedDispatcher

open Library Storage List Subscription
open OrderedMap (empty find_eq_some keys_insert mem_of_binding not_mem_bindings_empty)

variable {total first second index owner consumerId : Nat} {hash : Int}
  {dispatcher : KeySharedDispatcher}

theorem auto_split_range_eq (within : index < total) (small : total ≤ 32767) :
    autoSplitRange index total =
      ⟨(index * 65536 / total : Nat), ((index + 1) * 65536 / total : Nat) - 1⟩ := by
  have fits (value : Int) : 0 ≤ value → value < 2 ^ 31 → wrapI32 value = value :=
    fun low high => wrap_i32_of_fits (by omega) high
  simp only [autoSplitRange]
  rw [fits total (by omega) (by omega), fits index (by omega) (by omega),
    fits _ (by omega) (by omega),
    fits _ (by omega) (by omega), Int.tdiv_eq_ediv_of_nonneg (by omega),
    Int.tdiv_eq_ediv_of_nonneg (by omega)]
  push_cast
  rfl

theorem auto_split_range_before (before : first < second)
    (within : second < total) (small : total ≤ 32767) :
    (autoSplitRange first total).stop < (autoSplitRange second total).start := by
  have ordered : (first + 1) * 65536 / total ≤ second * 65536 / total :=
    Nat.div_le_div_right (by omega)
  rw [auto_split_range_eq (before.trans within) small, auto_split_range_eq within small]
  dsimp only
  omega

variable {consumers : OrderedMap Nat Consumer}

theorem mem_auto_split {share : KeySharedHashRange × Nat} : share ∈ autoSplit consumers ↔
    ∃ index, consumers.keys[index]? = some share.2 ∧
      share.1 = autoSplitRange index consumers.keys.length := by
  constructor
  · intro member
    obtain ⟨⟨key, index⟩, inKeys, rfl⟩ := mem_map.mp member
    exact ⟨index, mem_zipIdx_iff_getElem?.mp inKeys, rfl⟩
  · rintro ⟨index, found, isRange⟩
    exact mem_map.mpr ⟨(share.2, index), mem_zipIdx_iff_getElem?.mpr found,
      Prod.ext isRange.symm rfl⟩

def Owns (consumers : OrderedMap Nat Consumer) (consumerId : Nat) (hash : Int) : Prop :=
  ∃ share ∈ autoSplit consumers, share.2 = consumerId ∧ share.1.start ≤ hash ∧
    hash ≤ share.1.stop

theorem owns_iff :
    Owns consumers owner hash ↔ ∃ index, consumers.keys[index]? = some owner ∧
      (autoSplitRange index consumers.keys.length).start ≤ hash ∧
      hash ≤ (autoSplitRange index consumers.keys.length).stop := by
  constructor
  · rintro ⟨share, member, rfl, within⟩
    obtain ⟨index, found, isRange⟩ := mem_auto_split.mp member
    exact ⟨index, found, isRange ▸ within⟩
  · rintro ⟨index, found, within⟩
    exact ⟨(_, owner), mem_auto_split.mpr ⟨index, found, rfl⟩, rfl, within⟩

theorem owner_unique (few : consumers.keys.length ≤ 32767)
    (isFirst : Owns consumers first hash) (isSecond : Owns consumers second hash) :
    first = second := by
  obtain ⟨left, leftKey, leftStart, leftStop⟩ := owns_iff.mp isFirst
  obtain ⟨right, rightKey, rightStart, rightStop⟩ := owns_iff.mp isSecond
  obtain ⟨leftBound, _⟩ := List.getElem?_eq_some_iff.mp leftKey
  obtain ⟨rightBound, _⟩ := List.getElem?_eq_some_iff.mp rightKey
  rcases lt_trichotomy left right with before | same | after
  · have apart := auto_split_range_before before rightBound few
    omega
  · rw [same, rightKey] at leftKey
    exact (Option.some.inj leftKey).symm
  · have apart := auto_split_range_before after leftBound few
    omega

theorem auto_split_congr {first second} (same : first.keys = second.keys) :
    autoSplit first = autoSplit second := by
  rw [autoSplit, autoSplit, same]

/-- Every hash that is pending at a consumer is in its share, and the products of
the split are within `i32`. -/
def KeepsShares (consumers : OrderedMap Nat Consumer) : Prop :=
  consumers.keys.length ≤ 32767 ∧ EachPending consumers fun consumerId pending =>
    ∀ hash, pending.2.stickyKeyHash = some hash → Owns consumers consumerId hash

/-- Joining and leaving takes no hash from a consumer that has a message of it pending. -/
def keepingShares : Conditions :=
  { Conditions.none with
    joins := fun dispatcher consumerId => consumerId ∉ dispatcher.consumers →
      ∀ name priority policy, KeepsShares (dispatcher.consumers.insert consumerId
        (.new name priority policy))
    leaves := fun dispatcher consumerId => KeepsShares (dispatcher.consumers.erase consumerId) }

structure Divided (dispatcher : KeySharedDispatcher) : Prop where
  mode : dispatcher.keySharedPolicy.mode = .autoSplit
  assigned : dispatcher.autoSplitAssignments = autoSplit dispatcher.consumers
  shares : KeepsShares dispatcher.consumers

theorem KeepsShares.congr {before after} (keeps : KeepsShares before)
    (same : after.keys = before.keys)
    (each : EachPending after fun consumerId pending =>
      ∀ hash, pending.2.stickyKeyHash = some hash → Owns before consumerId hash) :
    KeepsShares after := by
  refine ⟨same ▸ keeps.1, ?_⟩
  unfold Owns at each ⊢
  rw [auto_split_congr same]
  exact each

theorem Divided.select (divided : Divided dispatcher) {consumer : Consumer}
    (selected : dispatcher.selectConsumerForHash hash = some (consumerId, consumer)) :
    (consumerId, consumer) ∈ dispatcher.consumers.bindings ∧
      Owns dispatcher.consumers consumerId hash := by
  obtain ⟨⟨share, member, within⟩, isConsumer, _⟩ := select_consumer_some selected
  rw [activeAssignments, divided.mode] at member
  exact ⟨isConsumer, share, divided.assigned ▸ member, within⟩

theorem Divided.with_consumers {after} (divided : Divided dispatcher)
    (samePolicy : after.keySharedPolicy = dispatcher.keySharedPolicy)
    (sameShares : after.autoSplitAssignments = dispatcher.autoSplitAssignments)
    (sameKeys : after.consumers.keys = dispatcher.consumers.keys)
    (each : EachPending after.consumers fun consumerId pending =>
      ∀ hash, pending.2.stickyKeyHash = some hash → Owns dispatcher.consumers consumerId hash) :
    Divided after := by
  refine ⟨samePolicy ▸ divided.mode, ?_, divided.shares.congr sameKeys each⟩
  rw [sameShares, divided.assigned, auto_split_congr sameKeys]

theorem Move.divided {context view before after} (move : Move context view before after)
    (divided : Divided before.dispatcher) : Divided after.dispatcher := by
  have each := divided.shares.2
  cases move with
  | swept | advanced => exact ⟨divided.mode, divided.assigned, divided.shares⟩
  | redelivered dropped redelivery queued after gone popped permits total =>
    obtain ⟨member, owns⟩ := divided.select popped.selected
    apply divided.with_consumers
    · rfl
    · rfl
    · exact keys_insert (mem_of_binding member)
    · apply each.sent member
      rintro hash ⟨⟩
      exact owns
  | restored dropped redelivery queued after gone popped count unsent total bounced =>
    obtain ⟨member, _⟩ := divided.select popped.selected
    apply divided.with_consumers
    · rfl
    · rfl
    · exact keys_insert (mem_of_binding member)
    · exact each.fewer member bounced.fewer
  | blocked => exact ⟨divided.mode, divided.assigned, divided.shares⟩
  | handed candidate message offered free consumerId consumer selected permits total =>
    obtain ⟨member, owns⟩ := divided.select selected
    apply divided.with_consumers
    · rfl
    · rfl
    · exact keys_insert (mem_of_binding member)
    · apply each.sent member
      rintro hash ⟨⟩
      exact owns
  | deferred candidate message offered consumerId consumer unsent total selected bounced =>
    obtain ⟨member, _⟩ := divided.select selected
    apply divided.with_consumers
    · rfl
    · rfl
    · exact keys_insert (mem_of_binding member)
    · exact each.fewer member bounced.fewer

theorem divided_invariant {site keySharedPolicy}
    (splits : ∀ policy, keySharedPolicy = some policy → policy.mode = .autoSplit) :
    KeySharedInvariant site keySharedPolicy keepingShares fun _ dispatcher _ =>
      Divided dispatcher where
  created := by
    intro view readPosition _ _
    refine ⟨?_, rfl, Nat.zero_le _, ?_⟩
    · cases keySharedPolicy with
      | none => rfl
      | some policy => exact splits policy rfl
    · exact fun _ member => absurd member not_mem_bindings_empty
  changed := by
    intro view dispatcher delivered rebuilt later common divided _ change
    cases change with
    | published => exact divided
    | joined permitted fresh => exact ⟨divided.mode, rfl, permitted fresh _ _ _⟩
    | tuned thinned | acked thinned =>
      exact divided.with_consumers rfl rfl thinned.keys (thinned.each divided.shares.2)
    | @returned consumerId consumer messageIds reader _ _ member =>
      have thinned := (take_for_redelivery_spec messageIds consumer).thinned member
      exact divided.with_consumers rfl rfl thinned.keys (thinned.each divided.shares.2)
    | left permitted => exact ⟨divided.mode, rfl, permitted⟩
    | unknown => exact ⟨divided.mode, rfl, divided.shares⟩
  moved _ move _ _ divided := move.divided divided

/-- No two connected consumers have messages with the same sticky key hash pending. -/
def ExclusiveKeys (site : SubscriptionSite) (subscription : Subscription) : Prop :=
  ∀ dispatcher, subscription.dispatcher = some (.keyShared dispatcher) →
    ∀ left ∈ dispatcher.consumers.bindings, ∀ right ∈ dispatcher.consumers.bindings,
      left.1 ≠ right.1 → ∀ first second : StoredMessage,
        (subscription.reader site).getMessageEntryById first.messageId = some first →
        (subscription.reader site).getMessageEntryById second.messageId = some second →
        first.messageId ∈ left.2.pendingAcks → second.messageId ∈ right.2.pendingAcks →
        stickyKeyHashFromMetadata site.decode first.metadata ≠
          stickyKeyHashFromMetadata site.decode second.metadata

/-- In runs in which nobody loses a hash that it has messages of, no key is ever at
two consumers. -/
theorem keys_exclusive_while_shares_are_kept {site : SubscriptionSite} {partition : Int}
    {keySharedPolicy : Option KeySharedPolicy} {start state : Subscription}
    (splits : ∀ policy, keySharedPolicy = some policy → policy.mode = .autoSplit)
    (started : Started site partition .keyShared keySharedPolicy start)
    (run : Run (handle site) (Permitted site partition keepingShares) start state) :
    ExclusiveKeys site state := by
  obtain ⟨view, sustains⟩ := (divided_invariant splits).invariant.run (.inr rfl) started
    (fun _ _ => trivial) False.elim run
  intro dispatcher isDispatcher left isLeft right isRight different first second foundFirst
    foundSecond pendingFirst pendingSecond same
  obtain ⟨_, _, _, ⟨⟩, _, sound, divided⟩ := sustains.busy _ isDispatcher
  have presents := sustains.serves.presents
  have owned : ∀ consumer ∈ dispatcher.consumers.bindings, ∀ message : StoredMessage,
      (state.reader site).getMessageEntryById message.messageId = some message →
      message.messageId ∈ consumer.2.pendingAcks →
      Owns dispatcher.consumers consumer.1
        (stickyKeyHashFromMetadata site.decode message.metadata) := by
    intro consumer member message found pending
    obtain ⟨ack, isAck⟩ := OrderedMap.mem_iff.mp pending
    obtain ⟨stored, _⟩ := (presents.entry _ _).mp found
    have labelled := sound.pending consumer member _ isAck
    exact divided.shares.2 consumer member _ isAck _ (labelled.hash_eq presents.lined stored)
  apply different
  apply owner_unique divided.shares.1
  · exact owned left isLeft first foundFirst pendingFirst
  · rw [same]
    exact owned right isRight second foundSecond pendingSecond

def sampleHanded : List Subscription.Request :=
  [.publish [sampleItem], .addConsumer 5 [] 0 none, .flow 5 10, .dispatch []]

def sampleOwners (requests : List Subscription.Request) : KeySharedDispatcher :=
  match (samplePlay .keyShared requests).dispatcher with
  | some (.keyShared dispatcher) => dispatcher
  | _ => new none

/-- Another consumer joins, takes over the upper half of the hashes, and is handed a
message of its own. -/
def sampleDivided : List Subscription.Request :=
  sampleHanded ++ [.addConsumer 7 [] 0 none, .flow 7 10,
    .publish [{ sampleItem with metadata := [50, 1, 99] }], .dispatch []]

theorem sample_keys_exclusive :
    (sampleOwners sampleDivided).consumers.bindings.map
        (fun consumer => (consumer.1, consumer.2.pendingAcks.keys)) =
      [(5, [(sampleMessage 0).messageId]), (7, [(sampleMessage 1).messageId])] ∧
    ExclusiveKeys sampleSite (samplePlay .keyShared sampleDivided) := by
  have splits : ∀ policy, (none : Option KeySharedPolicy) = some policy →
      policy.mode = .autoSplit := nofun
  have alone name priority policy : KeepsShares (empty.insert 5
      (Consumer.new name priority policy)) := by
    have few : (empty.insert 5 (Consumer.new name priority policy)).keys.length = 1 := rfl
    refine ⟨by omega, EachPending.insert ?_ ?_⟩
    all_goals exact fun _ absent => absurd absent not_mem_bindings_empty
  have held : ∀ consumer ∈ (sampleOwners sampleHanded).consumers.bindings, consumer.1 = 5 ∧
      ∀ pending ∈ consumer.2.pendingAcks.bindings, pending.2.stickyKeyHash = some 0 := by decide
  -- the hash that the first consumer holds stays in its share
  have beside name priority policy : KeepsShares ((sampleOwners sampleHanded).consumers.insert 7
      (Consumer.new name priority policy)) := by
    have few : ((sampleOwners sampleHanded).consumers.insert 7
        (Consumer.new name priority policy)).keys.length = 2 := rfl
    refine ⟨by omega, EachPending.insert ?_ fun _ absent => absurd absent not_mem_bindings_empty⟩
    intro consumer member pending isPending hash isHash
    obtain ⟨isFirst, hashes⟩ := held consumer member
    cases (hashes pending isPending).symm.trans isHash
    exact ⟨(autoSplitRange 0 2, 5), mem_cons_self, isFirst.symm, by decide, by decide⟩
  refine ⟨rfl, keys_exclusive_while_shares_are_kept splits (sample_started .keyShared) ?_⟩
  apply Run.of_permits
  refine ⟨⟨⟨sample_publishable, ?_⟩, fun _ _ => trivial⟩,
    ⟨fun _ => alone, fun _ _ => trivial⟩, ⟨fun _ _ => trivial, fun _ _ => trivial⟩,
    ⟨trivial, fun _ _ => trivial⟩, ⟨fun _ => beside, fun _ _ => trivial⟩,
    ⟨fun _ _ => trivial, fun _ _ => trivial⟩, ⟨⟨⟨by decide, by decide⟩, ?_⟩, fun _ _ => trivial⟩,
    ⟨trivial, fun _ _ => trivial⟩, trivial⟩
  all_goals
    rintro ledger ⟨⟩
    decide

/-- The other consumer takes over the lower half of the hashes, and is handed the next
message. Both messages have the hash 0. -/
def sampleMoved : List Subscription.Request :=
  sampleHanded ++ [.addConsumer 3 [] 0 none, .flow 3 10, .publish [sampleItem], .dispatch []]

def sampleOwner (consumerId : Nat) : Consumer :=
  ((sampleOwners sampleMoved).consumers.find consumerId).getD (Consumer.new [] 0 none)

theorem key_at_two_consumers :
    Started sampleSite (-1) .keyShared none (sampleStart .keyShared) ∧
      Run (handle sampleSite) (Permitted sampleSite (-1) Conditions.none) (sampleStart .keyShared)
        (samplePlay .keyShared sampleMoved) ∧
      ¬ ExclusiveKeys sampleSite (samplePlay .keyShared sampleMoved) := by
  refine ⟨sample_started .keyShared, ?_, ?_⟩
  · apply Run.of_permits
    refine ⟨⟨⟨sample_publishable, ?_⟩, fun _ _ => trivial⟩,
      ⟨trivial, fun _ _ => trivial⟩, ⟨fun _ _ => trivial, fun _ _ => trivial⟩,
      ⟨trivial, fun _ _ => trivial⟩, ⟨trivial, fun _ _ => trivial⟩,
      ⟨fun _ _ => trivial, fun _ _ => trivial⟩,
      ⟨⟨sample_publishable, ?_⟩, fun _ _ => trivial⟩, permits_unasked (by simp)⟩
    all_goals
      rintro ledger ⟨⟩
      decide
  intro exclusive
  have third : (3, sampleOwner 3) ∈ (sampleOwners sampleMoved).consumers.bindings :=
    find_eq_some.mp rfl
  have fifth : (5, sampleOwner 5) ∈ (sampleOwners sampleMoved).consumers.bindings :=
    find_eq_some.mp rfl
  have apart := exclusive (sampleOwners sampleMoved) rfl _ third _ fifth (by decide)
    (sampleMessage 1) (sampleMessage 0) rfl rfl (by decide) (by decide)
  exact apart rfl

end PulsarLite.Broker.KeySharedDispatcher
