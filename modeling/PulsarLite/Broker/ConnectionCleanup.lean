import PulsarLite.Broker.ConnectionListing

/-!
# What a connection leaves behind

As long as a connection does not subscribe under a number that it still holds, it
holds whatever is listed for it, and a cleanup that runs to its end leaves nothing. A
frame or a command that cannot be decoded skips the cleanup.
-/

namespace PulsarLite.Broker.Registry

open Library Storage

variable {registry : Registry} {connection : Nat} {next : Step}

structure Recorded (connection : Nat) (listing : Listing) : Prop where
  producers : listing.producers.Recorded connection
  consumers : listing.consumers.Recorded connection

section

variable (connection : Nat) (registry : Registry)

def Unlisted : Prop :=
  (∀ key producerId, ¬registry.listing.producers.Lists key producerId connection) ∧
    ∀ handle consumerId, ¬registry.listing.consumers.Lists handle consumerId connection

/-- The connection holds nothing under the number that it subscribes with, and nothing
at all when something cannot be decoded. -/
def Orderly (next : Step) : Prop :=
  next.connection = connection →
    match next.event with
    | .command (.subscribe request _) _ =>
      request.consumerId ∉ (registry.connections connection).consumers
    | .frameError | .undecodableCommand =>
      (registry.connections connection).producers.bindings = [] ∧
        (registry.connections connection).consumers.bindings = []
    | _ => True

end

theorem Recorded.step (recorded : Recorded connection registry.listing)
    (orderly : registry.Orderly connection next) :
    Recorded connection (registry.step next).listing := by
  have effect := step_effect registry next
  generalize (registry.step next).listing = after at effect
  cases effect with
  | same => exact recorded
  | addProducer topic producerId key written isEvent located fresh =>
    refine ⟨recorded.producers.enter ?_, recorded.consumers⟩
    intro _ place held
    exact fresh (OrderedMap.mem_of_binding held)
  | removeProducer key producerId held =>
    exact ⟨recorded.producers.leave held, recorded.consumers⟩
  | addConsumer request cursorOpened written handle isEvent asked vacant =>
    refine ⟨recorded.producers, recorded.consumers.enter ?_⟩
    intro isConnection place held
    have unused := orderly isConnection.symm
    rw [isEvent] at unused
    rw [← isConnection] at held
    exact unused (OrderedMap.mem_of_binding held)
  | removeConsumer handle consumerId held =>
    exact ⟨recorded.producers, recorded.consumers.leave held⟩

/-- The connection holds what is listed for it, and after `run` has returned it holds
nothing. -/
structure Settled (connection : Nat) (registry : Registry) : Prop where
  recorded : Recorded connection registry.listing
  emptied : (registry.connections connection).phase = .returned →
    (registry.connections connection).producers.bindings = [] ∧
      (registry.connections connection).consumers.bindings = []

theorem Settled.start (partitionMetadata : Text → Option Nat) (defaultPartitions : Nat) :
    (Registry.start partitionMetadata defaultPartitions).Settled connection where
  recorded := {
    producers _ _ listed := absurd listed List.not_mem_nil
    consumers _ _ listed := absurd listed List.not_mem_nil }
  emptied _ := ⟨rfl, rfl⟩

theorem Settled.step (settled : registry.Settled connection)
    (orderly : registry.Orderly connection next) : (registry.step next).Settled connection where
  recorded := settled.recorded.step orderly
  emptied returned := by
    have effect := step_effect registry next
    rcases step_returned returned with before | ⟨isConnection, broken⟩ | ⟨isConnection, done, empty⟩
    · -- it had returned before; its own steps do nothing then
      obtain ⟨noProducers, noConsumers⟩ := settled.emptied before
      by_cases isConnection : connection = next.connection
      · rw [isConnection] at before
        unfold Registry.step
        rw [before]
        exact ⟨noProducers, noConsumers⟩
      · exact effect.held_empty (fun same => absurd same isConnection) noProducers noConsumers
    · have empty := orderly isConnection.symm
      rcases broken with isEvent | isEvent
      all_goals
        rw [isEvent] at empty effect
        exact effect.held_empty (fun _ _ _ => nofun) empty.1 empty.2
    · rw [done] at effect
      exact effect.held_empty (fun _ _ _ => nofun) empty.1 empty.2

theorem Settled.unlisted (settled : registry.Settled connection)
    (returned : (registry.connections connection).phase = .returned) :
    registry.Unlisted connection :=
  ⟨settled.recorded.producers.nowhere (settled.emptied returned).1,
    settled.recorded.consumers.nowhere (settled.emptied returned).2⟩

/-- Whatever the connections do: once `run` of one that was orderly has returned, no
topic and no subscription lists anything of it. -/
theorem cleaned_up_when_orderly {partitionMetadata : Text → Option Nat} {defaultPartitions : Nat}
    (run : Run .step (Orderly connection) (.start partitionMetadata defaultPartitions) registry)
    (returned : (registry.connections connection).phase = .returned) :
    registry.Unlisted connection := by
  have settled : registry.Settled connection :=
    run.invariant (Settled.start partitionMetadata defaultPartitions)
      fun _ _ settled orderly => settled.step orderly
  exact settled.unlisted returned

def sampleSession : List Step :=
  [onCnx 1 (.connect 20), onCnx 1 (sampleProducer 1), onCnx 1 (sampleSubscribe ['a'] 5),
    ⟨1, .endOfStream⟩, ⟨1, .drainProducer 1⟩, ⟨1, .drainConsumer 5⟩, ⟨1, .cleanupDone⟩]

theorem sample_cleaned_up :
    ((sampleSession.foldl Registry.step sampleBroker).connections 1).phase = .returned ∧
      (sampleSession.foldl Registry.step sampleBroker).Unlisted 1 := by
  have run : Run Registry.step (Orderly 1) (Registry.start (fun _ => none) 0)
      (sampleSession.foldl Registry.step sampleBroker) := by
    have unused : 5 ∉
        (((sampleSession.take 2).foldl Registry.step sampleBroker).connections 1).consumers := by
      decide
    apply Run.of_permits
    exact ⟨fun _ => trivial, fun _ => trivial, fun _ => unused, fun _ => trivial,
      fun _ => trivial, fun _ => trivial, fun _ => trivial, trivial⟩
  exact ⟨by decide, cleaned_up_when_orderly run (by decide)⟩

def brokenSession : List Step :=
  [onCnx 1 (.connect 20), onCnx 1 (sampleProducer 1), onCnx 1 (sampleSubscribe ['a'] 5),
    ⟨1, .frameError⟩]

def reusedSession : List Step :=
  [onCnx 1 (.connect 20), onCnx 1 (sampleSubscribe ['a'] 5), onCnx 1 (sampleSubscribe ['b'] 5),
    ⟨1, .endOfStream⟩, ⟨1, .drainConsumer 5⟩, ⟨1, .cleanupDone⟩]

theorem registrations_stay_behind :
    (((brokenSession.foldl Registry.step sampleBroker).connections 1).phase = .returned ∧
      ¬(brokenSession.foldl Registry.step sampleBroker).Unlisted 1) ∧
    ((reusedSession.foldl Registry.step sampleBroker).connections 1).phase = .returned ∧
      ¬(reusedSession.foldl Registry.step sampleBroker).Unlisted 1 := by
  refine ⟨⟨by decide, ?_⟩, by decide, ?_⟩
  · intro unlisted
    apply unlisted.1 (.nonPartitioned "persistent://public/default/orders".toList) 1
    unfold Roll.Lists
    decide
  · intro unlisted
    apply unlisted.2 0 5
    unfold Roll.Lists
    decide

end PulsarLite.Broker.Registry
