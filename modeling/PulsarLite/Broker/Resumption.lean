import Mathlib.Data.List.Infix
import PulsarLite.Broker.FlowControl
import PulsarLite.Broker.SharedProgress

/-!
# What makes a dispatcher look again

A pass is made by a task, and a task is spawned when a publish has completed and
when a connected consumer is granted permits. Requests for redelivery and consumers
that leave bring a pass of their own. Nothing else does: neither an acknowledgement
nor a connection that has drained.
-/

namespace PulsarLite.Broker.Subscription

open Library Storage SharedDispatcher

/-- Something that happens to a subscription. A dispatch is the run of a spawned task.
Of a publish, `completes` says whether its connection is there to take the completion. -/
structure Event where
  request : Request
  completes : Bool

/-- `Topic::spawn_dispatcher` after a publish, and the task that `handle_flow` spawns. -/
def spawns (subscription : Subscription) (event : Event) : Nat :=
  match event.request with
  | .publish _ => if event.completes then 1 else 0
  | .flow consumerId _ =>
    if subscription.dispatcher.any fun dispatcher => decide (consumerId ∈ dispatcher.consumers)
    then 1 else 0
  | _ => 0

def spawned (site : SubscriptionSite) : Subscription → List Event → Nat
  | _, [] => 0
  | subscription, event :: events =>
    spawns subscription event + spawned site (subscription.handle site event.request) events

def isDispatch (event : Event) : Bool :=
  match event.request with
  | .dispatch _ => true
  | _ => false

def dispatched (events : List Event) : Nat :=
  events.countP isDispatch

/-- Nothing is dispatched but by a task that was spawned before. -/
def Orderly (site : SubscriptionSite) (start : Subscription) (events : List Event) : Prop :=
  ∀ early ∈ events.inits, dispatched early ≤ spawned site start early

instance (site : SubscriptionSite) (start : Subscription) (events : List Event) :
    Decidable (Orderly site start events) :=
  inferInstanceAs (Decidable (∀ early ∈ events.inits, _ ≤ _))

/-- Neither a publish nor a Flow, nor a request for redelivery, nor does anybody join
or leave. -/
def Quiet (event : Event) : Prop :=
  match event.request with
  | .dispatch _ | .ack _ _ _ _ | .setWritable _ _ => True
  | _ => False

def play (site : SubscriptionSite) (start : Subscription) (events : List Event) : Subscription :=
  events.foldl (fun subscription event => subscription.handle site event.request) start

variable {site : SubscriptionSite} {start : Subscription} {events before between quiet : List Event}

theorem spawned_append (start : Subscription) (events more : List Event) :
    spawned site start (events ++ more) =
      spawned site start events + spawned site (play site start events) more := by
  induction events generalizing start with
  | nil => exact (Nat.zero_add _).symm
  | cons event events ih =>
    rw [List.cons_append, spawned, ih, ← Nat.add_assoc]
    rfl

theorem dispatched_append (events more : List Event) :
    dispatched (events ++ more) = dispatched events + dispatched more :=
  List.countP_append

theorem Orderly.le (orderly : Orderly site start events) :
    dispatched events ≤ spawned site start events :=
  orderly events ((List.mem_inits _ _).mpr List.prefix_rfl)

theorem spawned_quiet (isQuiet : ∀ event ∈ quiet, Quiet event) (start : Subscription) :
    spawned site start quiet = 0 := by
  induction quiet generalizing start with
  | nil => rfl
  | cons event quiet ih =>
    obtain ⟨now, later⟩ := List.forall_mem_cons.mp isQuiet
    rw [spawned, ih later, spawns]
    obtain ⟨request, completes⟩ := event
    cases request with
    | dispatch | ack | setWritable => rfl
    | _ => exact now.elim

theorem quiet_delivers_nothing (isQuiet : ∀ event ∈ quiet, Quiet event)
    (idle : dispatched quiet = 0) (start : Subscription) :
    (play site start quiet).delivered = start.delivered := by
  induction quiet generalizing start with
  | nil => rfl
  | cons event quiet ih =>
    obtain ⟨now, later⟩ := List.forall_mem_cons.mp isQuiet
    rw [dispatched, List.countP_cons] at idle
    refine (ih later (by rw [dispatched]; omega) _).trans ?_
    obtain ⟨request, completes⟩ := event
    cases request with
    | dispatch => simp [isDispatch] at idle
    | ack => exact (Undisturbed.message_acked _ _ _ _).delivered
    | setWritable => exact (Undisturbed.set_writable _ _).delivered
    | _ => exact now.elim

/-- However quietly things go on, once every spawned task has run there has been a pass. -/
def Resumes (site : SubscriptionSite) (start : Subscription) (events : List Event) : Prop :=
  ∀ quiet : List Event, (∀ event ∈ quiet, Quiet event) → Orderly site start (events ++ quiet) →
    dispatched (events ++ quiet) = spawned site start (events ++ quiet) → 0 < dispatched quiet

theorem Orderly.resumes_iff (orderly : Orderly site start events) :
    Resumes site start events ↔ dispatched events < spawned site start events := by
  constructor
  · intro resumes
    rcases orderly.le.lt_or_eq with fewer | same
    · exact fewer
    · have some := resumes [] nofun (by rwa [List.append_nil]) (by rwa [List.append_nil])
      cases some
  · intro fewer quiet isQuiet _ done
    rw [dispatched_append, spawned_append, spawned_quiet isQuiet] at done
    omega

/-- A pass comes to a consumer that cannot be sent to or has too much already, and its
turn is the last one of the pass. -/
structure HeldUp (site : SubscriptionSite) (slots : ChannelSlots) (subscription : Subscription)
    (dispatcher : SharedDispatcher) (last : Pass SharedDispatcher) (consumer : Nat × Consumer) :
    Prop where
  isDispatcher : subscription.dispatcher = some (.shared dispatcher)
  reached : Run (fun pass (_ : Unit) => (dispatchRound (subscription.context site) pass).state)
    (fun _ _ => True) ⟨dispatcher, slots, subscription.delivered, 0⟩ last
  chosen : last.dispatcher.getNextAvailableConsumer.1 = some consumer
  blocked : consumer.2.isWritable = false ∨ last.slots.headD true = false ∨
    last.dispatcher.maxUnackedMessages ≤ consumer.2.pendingAcks.bindings.length
  ends : (subscription.dispatchMessages site slots).dispatcher =
    some (.shared (dispatchRound (subscription.context site) last).state.dispatcher)

structure Recovered (site : SubscriptionSite) (subscription : Subscription)
    (dispatcher : SharedDispatcher) (consumer : Nat × Consumer) (message : StoredMessage) :
    Prop where
  isDispatcher : subscription.dispatcher = some (.shared dispatcher)
  member : consumer ∈ dispatcher.consumers.bindings
  able : CanTake dispatcher.maxUnackedMessages consumer.2
  waits : Waits (subscription.reader site) dispatcher message

/-- A run with a pass in it. -/
def around (before : List Event) (slots : ChannelSlots) (between : List Event) : List Event :=
  before ++ ⟨.dispatch slots, false⟩ :: between

/-- One and the same consumer holds up a pass and has recovered since. -/
structure Stalled (site : SubscriptionSite) (start : Subscription) (before : List Event)
    (slots : ChannelSlots) (between : List Event) (consumerId : Nat) : Prop where
  orderly : Orderly site start (around before slots between)
  heldUp : ∃ dispatcher last consumer,
    HeldUp site slots (play site start before) dispatcher last (consumerId, consumer)
  recovered : ∃ dispatcher consumer message,
    Recovered site (play site start (around before slots between)) dispatcher
      (consumerId, consumer) message

def sampleBackedUp : List Event :=
  [⟨.addConsumer 5 [] 0 none, false⟩, ⟨.flow 5 10, false⟩, ⟨.dispatch [], false⟩,
    ⟨.setWritable 5 false, false⟩, ⟨.publish [sampleItem], true⟩]

theorem sample_held_up : ∃ dispatcher last consumer, HeldUp sampleSite []
    (play sampleSite (sampleStart .shared) sampleBackedUp) dispatcher last (5, consumer) :=
  ⟨_, _, { (Consumer.new [] 0 none).addPermits 10 with isWritable := false }, rfl, .refl, rfl,
    .inl rfl, rfl⟩

/-- One more message is published while the connection drains, and its task has not run. -/
def sampleRefilled : List Event :=
  [⟨.setWritable 5 true, false⟩, ⟨.publish [sampleItem], true⟩]

def sampleDrained : List Event :=
  [⟨.setWritable 5 true, false⟩]

end PulsarLite.Broker.Subscription
