import PulsarLite.Broker.CommonRun

/-!
# No message is lost by a dispatcher with many consumers

The read position of a Shared or KeyShared dispatcher has passed only messages that
are acknowledged, pending at a connected consumer, or queued for redelivery.
-/

namespace PulsarLite.Broker.Subscription

open Library Storage OrderedMap MultipleConsumers List RedeliveryController

variable {before next : Stage}

def Kept (common : MultipleConsumers) (messageId : MessageId) : Prop :=
  common.Pends messageId ∨ messageId ∈ common.redeliveryController.entries

def Accounted (view : SubscriptionView) (common : MultipleConsumers) : Prop :=
  ∀ position, common.readPosition = some position → Reached view (Kept common) position

variable {view : SubscriptionView} {common after : MultipleConsumers}

theorem Accounted.keep (accounted : Accounted view common)
    (same : after.readPosition = common.readPosition)
    (keeps : ∀ message ∈ view.messages, Kept common message.messageId →
      view.acked message.messageId.slot ∨ Kept after message.messageId) :
    Accounted view after :=
  fun position isPosition => (accounted position (same ▸ isPosition)).mono keeps

variable {consumerId : Nat} {consumer : Consumer}

section

variable (accounted : Accounted view common) {entries : List RedeliveryEntry}
include accounted

theorem Accounted.join (fresh : consumerId ∉ common.consumers) :
    Accounted view (common.putConsumer consumerId consumer) := by
  apply accounted.keep
  · rfl
  intro message _ kept
  apply Or.inr (kept.imp_left _)
  rintro ⟨holder, member, pending⟩
  refine held_insert.mpr (Or.inr ⟨holder, member, ?_, pending⟩)
  exact fun same => fresh (same ▸ mem_of_binding member)

theorem Accounted.returned {keeps reader} (presents : Presents reader view)
    (member : (consumerId, consumer) ∈ common.consumers.bindings)
    (gives : Returned consumer entries keeps) :
    Accounted view ((common.putConsumer consumerId keeps).addRedeliveryEntries
      (entries.filter fun entry => !reader.isAcknowledged entry.1)) := by
  have thinned := gives.thinned member
  apply accounted.keep
  · rfl
  intro message _ kept
  rw [or_iff_not_imp_left]
  intro unacked
  rcases kept with pends | isQueued
  · rcases thinned.still_held pends with isReturned | pends
    · obtain ⟨entry, isEntry, same⟩ := mem_map.mp isReturned
      apply Or.inr (mem_add_all.mpr (Or.inl ⟨entry, _, same⟩))
      rw [mem_filter, Bool.not_eq_true', same, ← Bool.not_eq_true, presents.acknowledged]
      exact ⟨isEntry, unacked⟩
    · exact Or.inl pends
  · exact Or.inr (mem_add_all.mpr (Or.inr isQueued))

theorem Accounted.leave (member : (consumerId, consumer) ∈ common.consumers.bindings)
    (queues : entries.map Prod.fst = consumer.pendingAcks.keys) :
    Accounted view (DispatcherEnum.Left common consumerId consumer entries) := by
  apply accounted.keep
  · rfl
  intro message _ kept
  apply Or.inr
  rcases kept with pends | isQueued
  · rcases (held_split member).mp pends with own | ⟨holder, isHolder, different, pending⟩
    · have listed : message.messageId ∈ entries.map Prod.fst := queues ▸ own
      obtain ⟨entry, isEntry, same⟩ := mem_map.mp listed
      exact Or.inr (mem_add_all.mpr (Or.inl ⟨entry, isEntry, same⟩))
    · exact Or.inl ⟨holder, mem_bindings_erase.mpr ⟨different, isHolder⟩, pending⟩
  · exact Or.inr (mem_add_all.mpr (Or.inr isQueued))

end

theorem Accounted.advance {accounts : MessageId → Prop} (accounted : Accounted view before.common)
    (advances : before.Advances view accounts after.readPosition)
    (requeues : before.Requeues view accounts after.redeliveryController)
    (pends : ∀ messageId, before.common.Pends messageId → Kept after messageId)
    (keeps : ∀ messageId, accounts messageId → Kept after messageId) : Accounted view after := by
  refine advances (Kept after) ⟨pends, fun old isOld => ?_⟩ keeps
  apply (accounted old isOld).mono
  rintro message member (isPending | isQueued)
  · exact .inr (pends _ isPending)
  rcases requeues message.messageId isQueued with (isAcked | missing) | isTaken | stays
  · exact .inl isAcked
  · exact absurd rfl (missing message member)
  · exact .inr (keeps _ isTaken)
  · exact .inr (.inr stays)

theorem Accounted.step {decode : Decode} (accounted : Accounted view before.common)
    (step : Stage.Step decode view before next) : Accounted view next.common := by
  cases step with
  | adjusted readPosition controller advances requeues =>
    apply accounted.advance advances
    · exact fun messageId isQueued => (requeues messageId isQueued).imp_right
        fun kept => .inl (kept.resolve_left id)
    · exact fun _ pends => .inl pends
    · exact fun _ isQueued => .inr isQueued
  | handed message consumerId consumer pending total readPosition controller count stored member
      positive charged advances requeues =>
      apply accounted.advance advances requeues
      · exact fun _ pends => .inl ((held_sent member).mpr (.inr pends))
      · exact fun _ same => .inl ((held_sent member).mpr (.inl same))
  | bounced message consumerId consumer unsent charge readPosition controller stored member
      positive charged bounces refunded advances requeues queued =>
      apply accounted.advance advances requeues
      · intro messageId pends
        rcases Held.bounced member bounces pends with rfl | still
        · exact .inr queued
        · exact .inl still
      · rintro messageId rfl
        exact .inr queued

open ManagedLedgerStore

variable {site : SubscriptionSite} {partition : Int} {subType : SubscriptionType}
  {keySharedPolicy : Option KeySharedPolicy} {start state : Subscription}

def rememberingAcks : Conditions :=
  { Conditions.none with remembering := True }

theorem accounted_invariant :
    CommonInvariant site rememberingAcks fun view common _ => Accounted view common where
  created _ _ reached position isPosition :=
    (reached position isPosition).mono fun _ _ absurdity => absurdity.elim
  changed := by
    intro view dispatcher common delivered rebuilt later after accounted _ change
    cases change with
    | published grows =>
      exact fun position isPosition => (accounted position isPosition).grows grows
    | joined _ fresh => exact accounted.join fresh
    | tuned thinned =>
      apply accounted.keep
      · rfl
      · exact fun message _ kept => .inr (kept.imp_left fun pends =>
          (thinned.still_held pends).resolve_left not_mem_nil)
    | @acked tracked dropped _ _ _ _ thinned _ reacked presents first includes acked keeps =>
      apply read_position_after_ack_reached presents first
      intro position isPosition
      apply (accounted position isPosition).reacked reacked
      · exact fun message member isAcked => .inl (keeps trivial message member isAcked)
      intro message _ kept
      by_cases isDropped : message.messageId ∈ dropped
      · exact .inl (acked _ isDropped)
      rcases kept with pends | isQueued
      · exact .inr (.inl ((thinned.still_held pends).resolve_left fun isTracked =>
          isDropped (includes _ isTracked)))
      · exact .inr (.inr (mem_sweep.mpr ⟨isDropped, isQueued⟩))
    | returned _ presents member =>
      exact accounted.returned presents member (take_for_redelivery_spec _ _)
    | left _ member queues => exact accounted.leave member queues
    | unknown => exact accounted
  stepped step _ accounted := accounted.step step

/-- Every stored message that is not acknowledged and before the read position is
pending at a connected consumer or queued for redelivery. -/
def NoneLost (site : SubscriptionSite) (subscription : Subscription) : Prop :=
  ∀ dispatcher common position, subscription.dispatcher = some dispatcher →
    dispatcher.multiple = some common → common.readPosition = some position →
    ∀ message, (subscription.reader site).getMessageEntryById message.messageId = some message →
      (subscription.reader site).isAcknowledged message.messageId = false →
      message.messageId.toPosition < position → Kept common message.messageId

/-- If the partition is not below -1 and the cursor has no mark that it would forget,
no message is lost. -/
theorem no_message_lost_while_acks_are_kept (isMultiple : subType = .shared ∨ subType = .keyShared)
    (regular : -1 ≤ partition) (started : Started site partition subType keySharedPolicy start)
    (remembers : Remembers site.topic site.name start.store)
    (run : Run (handle site) (Permitted site partition Conditions.none) start state) :
    NoneLost site state := by
  have invariant : Invariant site subType keySharedPolicy rememberingAcks _ :=
    accounted_invariant.invariant isMultiple
  obtain ⟨view, sustains⟩ := invariant.run isMultiple started (fun _ _ => trivial)
    (fun _ => remembers) run
  intro dispatcher common position isDispatcher isCommon isPosition message found unacked before
  obtain ⟨_, _, other, isOther, _, accounted⟩ := sustains.busy dispatcher isDispatcher
  cases isOther.symm.trans isCommon
  have presents := sustains.serves.presents
  obtain ⟨member, _⟩ := (presents.entry _ _).mp found
  have reached := accounted position isPosition
  have earlier : message.messageId.slot < position.slot := by
    rcases (ManagedLedgerPosition.lt_iff _ _).mp before with earlier | ⟨_, lower⟩
    · exact earlier
    · have isPartition : message.messageId.toPosition.partition = view.partition :=
        presents.lined.partitions message member
      have same := sustains.serves.partition_eq
      rcases reached.readable.partition with isView | isNone <;> omega
  apply (reached.passed message member earlier).resolve_left
  rw [← presents.acknowledged, Bool.not_eq_true]
  exact unacked

def sampleGivenBack : List Request :=
  [.publish [sampleItem], .addConsumer 5 [] 0 none, .flow 5 10, .dispatch [],
    .redeliver 5 [] [false]]

theorem sample_no_message_lost :
    NoneLost sampleSite (samplePlay .shared sampleGivenBack) := by
  apply no_message_lost_while_acks_are_kept (.inl rfl) (le_refl _) (sample_started .shared)
  · exact .inr rfl
  apply Run.of_permits
  refine ⟨⟨⟨sample_publishable, ?_⟩, fun _ _ => trivial⟩, ⟨trivial, fun _ _ => trivial⟩,
    ⟨fun _ _ => trivial, fun _ _ => trivial⟩, ⟨trivial, fun _ _ => trivial⟩,
    ⟨fun _ _ => trivial, fun _ _ => trivial⟩, trivial⟩
  rintro ledger ⟨⟩
  decide

/-- A subscription that begins after the one message of its topic. -/
def sampleLatest : Subscription where
  subType := .shared
  keySharedPolicy := none
  dispatcher := none
  pendingFirstUnacked := some none
  store := ((sampleStore.appendMessages sampleSite.topic [sampleItem]).initializeOrOpenCursor
    sampleSite.topic sampleSite.name ⟨.latest, none⟩).2
  delivered := []

def sampleForgotten : Subscription :=
  [Request.publish [sampleItem], .addConsumer 5 [] 0 none, .flow 5 10, .dispatch [],
    .ack 5 .individual [(sampleMessage 1).messageId] []].foldl (handle sampleSite) sampleLatest

def sampleLastDispatcher : SharedDispatcher :=
  match sampleForgotten.dispatcher with
  | some (.shared dispatcher) => dispatcher
  | _ => SharedDispatcher.new

theorem sample_latest_started : Started sampleSite (-1) .shared none sampleLatest := by
  refine ⟨sampleStore.appendMessages sampleSite.topic [sampleItem], ⟨.latest, none⟩, ?_, nofun, rfl⟩
  apply Prepared.appended [sampleItem] sampleStore _ sample_publishable
  · rintro ledger ⟨⟩
    decide
  · apply Prepared.created
    · exact ⟨rfl, rfl, rfl⟩
    · rintro ledger ⟨⟩
      decide

/-- The acknowledgement makes the cursor forget where it began. -/
theorem first_message_lost :
    Started sampleSite (-1) .shared none sampleLatest ∧
      Run (handle sampleSite) (Permitted sampleSite (-1) Conditions.none) sampleLatest
        sampleForgotten ∧ ¬ NoneLost sampleSite sampleForgotten := by
  refine ⟨sample_latest_started, ?_, ?_⟩
  · apply Run.of_permits
    refine ⟨⟨⟨sample_publishable, ?_⟩, fun _ _ => trivial⟩, permits_unasked (by simp)⟩
    rintro ledger ⟨⟩
    decide
  intro none
  have kept := none (.shared sampleLastDispatcher) sampleLastDispatcher.toMultipleConsumers
    ⟨0, 2, -1⟩ rfl rfl rfl (sampleMessage 0) rfl rfl (by decide)
  rcases kept with ⟨consumer, member, pending⟩ | isQueued
  · have nothing : ∀ consumer ∈ sampleLastDispatcher.consumers.bindings,
        consumer.2.pendingAcks = OrderedMap.empty := by decide
    rw [nothing consumer member] at pending
    exact absurd pending not_mem_empty
  · have nothing : (sampleMessage 0).messageId ∉
        sampleLastDispatcher.redeliveryController.entries := by decide
    exact nothing isQueued

end PulsarLite.Broker.Subscription
