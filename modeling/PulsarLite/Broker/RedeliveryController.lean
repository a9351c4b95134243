import Mathlib.Logic.Function.Basic
import Mathlib.Tactic.Tauto
import PulsarLite.Broker.Consumer

/-!
# The redelivery controller

Messages that wait to be delivered again, in the order of their ids. If hashes
are blocked, a message keeps its hash counted from the time it is queued until it
is restored or removed, through the time it is in flight.
-/

namespace PulsarLite.Broker

open Library Storage OrderedMap

variable {hash : Int} {messageId : MessageId} {stickyKeyHash : Option Int}

abbrev RedeliveryEntry := MessageId × PendingAck

structure RedeliveryController where
  entries : OrderedMap MessageId PendingAck
  inFlightHashes : OrderedMap MessageId Int
  blockedHashes : Int → Nat
  blockHashes : Bool

namespace RedeliveryController

def new (blockHashes : Bool) : RedeliveryController where
  entries := .empty
  inFlightHashes := .empty
  blockedHashes := fun _ => 0
  blockHashes := blockHashes

section

variable (controller : RedeliveryController)

def incrementHash (stickyKeyHash : Option Int) : RedeliveryController :=
  match controller.blockHashes, stickyKeyHash with
  | true, some hash => { controller with
      blockedHashes := Function.update controller.blockedHashes hash
        (controller.blockedHashes hash + 1) }
  | _, _ => controller

def decrementHash (stickyKeyHash : Option Int) : RedeliveryController :=
  match controller.blockHashes, stickyKeyHash with
  | true, some hash => { controller with
      blockedHashes := Function.update controller.blockedHashes hash
        (controller.blockedHashes hash - 1) }
  | _, _ => controller

variable (messageId : MessageId)

def releaseInFlightHash : RedeliveryController :=
  match controller.inFlightHashes.find messageId with
  | none => controller
  | some hash => decrementHash
      { controller with inFlightHashes := controller.inFlightHashes.erase messageId } (some hash)

def add (entry : RedeliveryEntry) : RedeliveryController :=
  match controller.entries.find entry.1 with
  | some existing =>
    let redeliveryCount := max existing.redeliveryCount entry.2.redeliveryCount
    if existing.stickyKeyHash.isNone then
      incrementHash { controller with
        entries := controller.entries.insert entry.1 ⟨redeliveryCount, entry.2.stickyKeyHash⟩ }
        entry.2.stickyKeyHash
    else { controller with
      entries := controller.entries.insert entry.1 ⟨redeliveryCount, existing.stickyKeyHash⟩ }
  | none => incrementHash
      { controller with entries := controller.entries.insert entry.1 entry.2 }
      entry.2.stickyKeyHash

def popNext : Option RedeliveryEntry × RedeliveryController :=
  match controller.entries.bindings with
  | [] => (none, controller)
  | entry :: _ => (some entry, decrementHash
      { controller with entries := controller.entries.erase entry.1 } entry.2.stickyKeyHash)

/-- A message that is taken keeps its hash counted while hashes are blocked. -/
def takeForDeliveryWithHash
    (stickyKeyHash : Option Int) : Option RedeliveryEntry × RedeliveryController :=
  match controller.entries.find messageId with
  | none => (none, controller)
  | some queued =>
    let supplied := queued.stickyKeyHash.isNone && stickyKeyHash.isSome
    let entry := if supplied then { queued with stickyKeyHash := stickyKeyHash } else queued
    let taken := { controller with entries := controller.entries.erase messageId }
    match controller.blockHashes, entry.stickyKeyHash with
    | true, some hash =>
      let counted := if supplied then taken.incrementHash (some hash) else taken
      (some (messageId, entry), { counted with
        inFlightHashes := counted.inFlightHashes.insert messageId hash })
    | true, none => (some (messageId, entry), taken)
    | false, _ => (some (messageId, entry), taken.decrementHash entry.stickyKeyHash)

def restore (entry : RedeliveryEntry) : RedeliveryController :=
  (controller.releaseInFlightHash entry.1).add entry

def remove : RedeliveryController :=
  let released := controller.releaseInFlightHash messageId
  match released.entries.find messageId with
  | none => released
  | some removed => decrementHash
      { released with entries := released.entries.erase messageId } removed.stickyKeyHash

def clear : RedeliveryController :=
  { controller with entries := .empty, inFlightHashes := .empty, blockedHashes := fun _ => 0 }

def queuedMessageIds : List MessageId :=
  controller.entries.keys

def queuedEntries : List RedeliveryEntry :=
  controller.entries.bindings

variable (stickyKeyHash : Int)

def isHashBlocked : Bool :=
  decide (0 < controller.blockedHashes stickyKeyHash)

def hasInFlightHash : Bool :=
  controller.inFlightHashes.bindings.any fun binding => decide (binding.2 = stickyKeyHash)

end

section

variable (controller : RedeliveryController) (stickyKeyHash : Option Int)

@[simp] theorem increment_hash_entries :
    (controller.incrementHash stickyKeyHash).entries = controller.entries := by
  unfold incrementHash
  split <;> rfl

@[simp] theorem increment_hash_in_flight :
    (controller.incrementHash stickyKeyHash).inFlightHashes = controller.inFlightHashes := by
  unfold incrementHash
  split <;> rfl

@[simp] theorem increment_hash_block :
    (controller.incrementHash stickyKeyHash).blockHashes = controller.blockHashes := by
  unfold incrementHash
  split <;> rfl

@[simp] theorem decrement_hash_entries :
    (controller.decrementHash stickyKeyHash).entries = controller.entries := by
  unfold decrementHash
  split <;> rfl

@[simp] theorem decrement_hash_in_flight :
    (controller.decrementHash stickyKeyHash).inFlightHashes = controller.inFlightHashes := by
  unfold decrementHash
  split <;> rfl

@[simp] theorem decrement_hash_block :
    (controller.decrementHash stickyKeyHash).blockHashes = controller.blockHashes := by
  unfold decrementHash
  split <;> rfl

variable (blocks : controller.blockHashes = true)
include blocks

theorem increment_hash_count (hash : Int) :
    (controller.incrementHash stickyKeyHash).blockedHashes hash =
      controller.blockedHashes hash + if stickyKeyHash = some hash then 1 else 0 := by
  cases stickyKeyHash with
  | none => simp [incrementHash]
  | some counted =>
    simp only [incrementHash, blocks, Function.update_apply, Option.some.injEq]
    by_cases same : hash = counted
    · simp [same]
    · simp [same, Ne.symm same]

theorem decrement_hash_count (hash : Int) :
    (controller.decrementHash stickyKeyHash).blockedHashes hash =
      controller.blockedHashes hash - if stickyKeyHash = some hash then 1 else 0 := by
  cases stickyKeyHash with
  | none => simp [decrementHash]
  | some counted =>
    simp only [decrementHash, blocks, Function.update_apply, Option.some.injEq]
    by_cases same : hash = counted
    · simp [same]
    · simp [same, Ne.symm same]

end

variable {controller : RedeliveryController} {entry : RedeliveryEntry}

@[simp] theorem release_entries :
    (controller.releaseInFlightHash messageId).entries = controller.entries := by
  unfold releaseInFlightHash
  split
  · rfl
  · rw [decrement_hash_entries]

@[simp] theorem release_block :
    (controller.releaseInFlightHash messageId).blockHashes = controller.blockHashes := by
  unfold releaseInFlightHash
  split
  · rfl
  · rw [decrement_hash_block]

@[simp] theorem mem_release {binding : MessageId × Int} :
    binding ∈ (controller.releaseInFlightHash messageId).inFlightHashes.bindings ↔
      binding.1 ≠ messageId ∧ binding ∈ controller.inFlightHashes.bindings := by
  unfold releaseInFlightHash
  split
  next missing =>
    rw [find_eq_none] at missing
    constructor
    · intro member
      exact ⟨fun same => missing (same ▸ mem_of_binding member), member⟩
    · exact And.right
  next => rw [decrement_hash_in_flight, mem_bindings_erase]

@[simp] theorem add_in_flight :
    (controller.add entry).inFlightHashes = controller.inFlightHashes := by
  unfold add
  split
  · split_ifs
    · rw [increment_hash_in_flight]
    · rfl
  · rw [increment_hash_in_flight]

@[simp] theorem add_block : (controller.add entry).blockHashes = controller.blockHashes := by
  unfold add
  split
  · split_ifs
    · rw [increment_hash_block]
    · rfl
  · rw [increment_hash_block]

variable {other : MessageId}

@[simp] theorem mem_add :
    other ∈ (controller.add entry).entries ↔ other = entry.1 ∨ other ∈ controller.entries := by
  unfold add
  split
  · split_ifs
    · rw [increment_hash_entries, mem_insert]
    · rw [mem_insert]
  · rw [increment_hash_entries, mem_insert]

theorem hash_add {binding} (member : binding ∈ (controller.add entry).entries.bindings) :
    binding ∈ controller.entries.bindings ∨ binding.1 = entry.1 ∧
      (binding.2.stickyKeyHash = entry.2.stickyKeyHash ∨ ∃ existing,
        (entry.1, existing) ∈ controller.entries.bindings ∧
          binding.2.stickyKeyHash = existing.stickyKeyHash) := by
  unfold add at member
  split at member
  next existing found =>
    split_ifs at member with bare
    · rw [increment_hash_entries, mem_bindings_insert] at member
      rcases member with rfl | old
      · exact .inr ⟨rfl, .inl rfl⟩
      · exact .inl old.2
    · rw [mem_bindings_insert] at member
      rcases member with rfl | old
      · exact .inr ⟨rfl, .inr ⟨existing, find_eq_some.mp found, rfl⟩⟩
      · exact .inl old.2
  next =>
    rw [increment_hash_entries, mem_bindings_insert] at member
    rcases member with rfl | old
    · exact .inr ⟨rfl, .inl rfl⟩
    · exact .inl old.2

@[simp] theorem remove_block :
    (controller.remove messageId).blockHashes = controller.blockHashes := by
  unfold remove
  dsimp only
  split
  · rw [release_block]
  · rw [decrement_hash_block, release_block]

@[simp] theorem mem_remove_entries {binding} :
    binding ∈ (controller.remove messageId).entries.bindings ↔
      binding.1 ≠ messageId ∧ binding ∈ controller.entries.bindings := by
  unfold remove
  dsimp only
  split
  next missing =>
    rw [find_eq_none, release_entries] at missing
    rw [release_entries]
    constructor
    · intro member
      exact ⟨fun same => missing (same ▸ mem_of_binding member), member⟩
    · exact And.right
  next => rw [decrement_hash_entries, mem_bindings_erase, release_entries]

variable {binding : MessageId × Int}

@[simp] theorem mem_remove_in_flight :
    binding ∈ (controller.remove messageId).inFlightHashes.bindings ↔
      binding.1 ≠ messageId ∧ binding ∈ controller.inFlightHashes.bindings := by
  unfold remove
  dsimp only
  split
  · exact mem_release
  · rw [decrement_hash_in_flight]
    exact mem_release

@[simp] theorem restore_block :
    (controller.restore entry).blockHashes = controller.blockHashes := by
  simp [restore]

@[simp] theorem mem_restore :
    other ∈ (controller.restore entry).entries ↔ other = entry.1 ∨ other ∈ controller.entries := by
  simp [restore]

@[simp] theorem mem_restore_in_flight :
    binding ∈ (controller.restore entry).inFlightHashes.bindings ↔
      binding.1 ≠ entry.1 ∧ binding ∈ controller.inFlightHashes.bindings := by
  simp [restore]

@[simp] theorem restore_flies : other ∈ (controller.restore entry).inFlightHashes ↔
      other ≠ entry.1 ∧ other ∈ controller.inFlightHashes := by
  simp [mem_iff]

variable {after : RedeliveryController} {popped : RedeliveryEntry}

theorem pop_next_some (isPopped : controller.popNext = (some popped, after)) :
    popped ∈ controller.entries.bindings ∧ after.entries = controller.entries.erase popped.1 := by
  unfold popNext at isPopped
  split at isPopped
  next => cases isPopped
  next first rest isFirst =>
    cases isPopped
    rw [isFirst, decrement_hash_entries]
    exact ⟨List.mem_cons_self, rfl⟩

theorem pop_next_bindings (isPopped : controller.popNext = (some popped, after)) :
    controller.entries.bindings = popped :: after.entries.bindings := by
  unfold popNext at isPopped
  split at isPopped
  next => cases isPopped
  next first rest isFirst =>
    cases isPopped
    rw [decrement_hash_entries, OrderedMap.erase_first isFirst, isFirst]

theorem pop_next_none (isPopped : controller.popNext = (none, after)) :
    controller.entries.bindings = [] := by
  unfold popNext at isPopped
  split at isPopped
  next empty => exact empty
  next => cases isPopped

/-- What taking a message with a hash at hand does. -/
structure Taken (controller : RedeliveryController) (messageId : MessageId) (hash : Int)
    (queued : PendingAck) (after : RedeliveryController) : Prop where
  member : (messageId, queued) ∈ controller.entries.bindings
  entries : after.entries = controller.entries.erase messageId
  blocks : after.blockHashes = controller.blockHashes
  inFlight : after.inFlightHashes = if controller.blockHashes then
    controller.inFlightHashes.insert messageId hash else controller.inFlightHashes
  supplied : queued.stickyKeyHash = none ∨ queued.stickyKeyHash = some hash
  count : controller.blockHashes = true → ∀ other, after.blockedHashes other =
    controller.blockedHashes other +
      if queued.stickyKeyHash = none ∧ hash = other then 1 else 0

variable {queued : PendingAck}

section

variable (taken : Taken controller messageId hash queued after)
include taken

theorem Taken.flying (member : binding ∈ after.inFlightHashes.bindings) :
    binding.1 = messageId ∨ binding ∈ controller.inFlightHashes.bindings := by
  rw [taken.inFlight] at member
  split_ifs at member
  · rcases mem_bindings_insert.mp member with rfl | ⟨_, old⟩
    · exact .inl rfl
    · exact .inr old
  · exact .inr member

theorem Taken.flies (member : other ∈ after.inFlightHashes) :
    other = messageId ∨ other ∈ controller.inFlightHashes := by
  obtain ⟨hash, isHash⟩ := mem_iff.mp member
  exact (taken.flying isHash).imp_right mem_of_binding

end

/-- A queued message is taken with the hash that it is supplied with, unless it has
another one already. -/
theorem take_queued (member : (messageId, queued) ∈ controller.entries.bindings)
    (supplied : queued.stickyKeyHash = none ∨ queued.stickyKeyHash = some hash) :
    ∃ after, controller.takeForDeliveryWithHash messageId (some hash) =
        (some (messageId, { queued with stickyKeyHash := some hash }), after) ∧
      controller.Taken messageId hash queued after := by
  have found := find_eq_some.mpr member
  let taken := { controller with entries := controller.entries.erase messageId }
  cases blocks : controller.blockHashes with
  | false =>
    refine ⟨taken.decrementHash (some hash), ?_, member, ?_, ?_, ?_, supplied, ?_⟩
    · rcases supplied with isNone | isSome
      · simp [takeForDeliveryWithHash, found, blocks, isNone, taken]
      · have kept : { queued with stickyKeyHash := some hash } = queued := by rw [← isSome]
        simp [takeForDeliveryWithHash, found, blocks, isSome, taken, kept]
    · rw [decrement_hash_entries]
    · rw [decrement_hash_block]
    · rw [decrement_hash_in_flight, blocks]
      rfl
    · rw [blocks]
      nofun
  | true =>
    rcases supplied with isNone | isSome
    · let counted := taken.incrementHash (some hash)
      refine ⟨{ counted with inFlightHashes := counted.inFlightHashes.insert messageId hash },
        ?_, member, ?_, ?_, ?_, .inl isNone, ?_⟩
      · simp [takeForDeliveryWithHash, found, blocks, isNone, counted, taken]
      · exact increment_hash_entries taken (some hash)
      · exact increment_hash_block taken (some hash)
      · rw [blocks, increment_hash_in_flight]
        rfl
      · intro _ other
        have count := increment_hash_count taken (some hash) blocks other
        simpa [isNone] using count
    · refine ⟨{ taken with inFlightHashes := taken.inFlightHashes.insert messageId hash },
        ?_, member, rfl, rfl, ?_, .inr isSome, ?_⟩
      · have kept : { queued with stickyKeyHash := some hash } = queued := by rw [← isSome]
        simp [takeForDeliveryWithHash, found, blocks, isSome, taken, kept]
      · rw [blocks]
        rfl
      · simp [isSome, taken]

section

variable (controller : RedeliveryController)

/-- The messages with a hash that are queued or in flight. -/
def weight (hash : Int) : Nat :=
  controller.entries.count (fun queued => decide (queued.stickyKeyHash = some hash)) +
    controller.inFlightHashes.count fun inFlight => decide (inFlight = hash)

def Counted : Prop :=
  controller.blockHashes = true → ∀ hash, controller.weight hash ≤ controller.blockedHashes hash

/-- The counts are those of the messages, and of hashes that were lost. -/
def Balanced (lost : Int → Nat) : Prop :=
  controller.blockHashes = true →
    ∀ hash, controller.blockedHashes hash = controller.weight hash + lost hash

end

theorem counted_iff : controller.Counted ↔ ∃ lost, controller.Balanced lost := by
  constructor
  · intro counted
    exact ⟨fun hash => controller.blockedHashes hash - controller.weight hash, fun blocks hash =>
      (Nat.add_sub_of_le (counted blocks hash)).symm⟩
  · rintro ⟨lost, balanced⟩ blocks hash
    rw [balanced blocks]
    exact Nat.le_add_right _ _

variable {lost : Int → Nat}

theorem balanced_increment
    (short : controller.blockHashes = true → ∀ hash, controller.weight hash + lost hash =
      controller.blockedHashes hash + if stickyKeyHash = some hash then 1 else 0) :
    (controller.incrementHash stickyKeyHash).Balanced lost := by
  intro blocks hash
  rw [increment_hash_block] at blocks
  rw [increment_hash_count _ _ blocks, weight, increment_hash_entries, increment_hash_in_flight]
  exact (short blocks hash).symm

theorem balanced_decrement
    (spare : controller.blockHashes = true → ∀ hash, controller.blockedHashes hash =
      controller.weight hash + lost hash + if stickyKeyHash = some hash then 1 else 0) :
    (controller.decrementHash stickyKeyHash).Balanced lost := by
  intro blocks hash
  rw [decrement_hash_block] at blocks
  rw [decrement_hash_count _ _ blocks, weight, decrement_hash_entries, decrement_hash_in_flight,
    spare blocks hash, Nat.add_sub_cancel, weight]

theorem balanced_new (blockHashes : Bool) : (new blockHashes).Balanced fun _ => 0 := by
  intro _ hash
  simp [weight, new]

theorem counted_new (blockHashes : Bool) : (new blockHashes).Counted :=
  counted_iff.mpr ⟨_, balanced_new blockHashes⟩

section

variable (balanced : controller.Balanced lost)
include balanced

theorem Balanced.release : (controller.releaseInFlightHash messageId).Balanced lost := by
  unfold releaseInFlightHash
  split
  next => exact balanced
  next inFlight found =>
    apply balanced_decrement
    intro blocks hash
    have before := balanced blocks hash
    have split := count_erase (fun inFlight => decide (inFlight = hash)) (find_eq_some.mp found)
    simp only [weight, split, Option.some.injEq, decide_eq_true_eq] at before ⊢
    omega

theorem Balanced.add : (controller.add entry).Balanced lost := by
  unfold RedeliveryController.add
  split
  next existing found =>
    have split hash := count_erase
      (fun queued => decide (queued.stickyKeyHash = some hash)) (find_eq_some.mp found)
    split_ifs with bare
    · apply balanced_increment
      intro blocks hash
      have before := balanced blocks hash
      have none : existing.stickyKeyHash = none := by simpa using bare
      simp only [weight, split, none, count_insert, decide_eq_true_eq, reduceCtorEq,
        if_false] at before ⊢
      omega
    · intro blocks hash
      have before := balanced blocks hash
      simp only [weight, split, count_insert] at before ⊢
      omega
  next missing =>
    apply balanced_increment
    intro blocks hash
    have before := balanced blocks hash
    have absent := count_erase_of_not_mem
      (fun queued : PendingAck => decide (queued.stickyKeyHash = some hash))
      (find_eq_none.mp missing)
    simp only [weight, absent, count_insert, decide_eq_true_eq] at before ⊢
    omega

theorem Balanced.restore : (controller.restore entry).Balanced lost := balanced.release.add

theorem Balanced.drop {queued : PendingAck}
    (member : (messageId, queued) ∈ controller.entries.bindings) :
    (decrementHash { controller with entries := controller.entries.erase messageId }
      queued.stickyKeyHash).Balanced lost := by
  apply balanced_decrement
  intro blocks hash
  have before := balanced blocks hash
  have split := count_erase (fun queued => decide (queued.stickyKeyHash = some hash)) member
  simp only [weight, split, decide_eq_true_eq] at before ⊢
  omega

theorem Balanced.remove : (controller.remove messageId).Balanced lost := by
  have released : (controller.releaseInFlightHash messageId).Balanced lost := balanced.release
  unfold RedeliveryController.remove
  dsimp only
  split
  next => exact released
  next queued found => exact released.drop (find_eq_some.mp found)

theorem Balanced.take {queued after} (taken : controller.Taken messageId hash queued after) :
    after.Balanced fun other =>
      lost other + if controller.inFlightHashes.find messageId = some other then 1 else 0 := by
  intro blocks other
  rw [taken.blocks] at blocks
  have before := balanced blocks other
  have split := count_erase (fun queued => decide (queued.stickyKeyHash = some other)) taken.member
  have flown : controller.inFlightHashes.count (fun inFlight => decide (inFlight = other)) =
      (controller.inFlightHashes.erase messageId).count
      (fun inFlight => decide (inFlight = other)) +
        if controller.inFlightHashes.find messageId = some other then 1 else 0 := by
    cases found : controller.inFlightHashes.find messageId with
    | none => rw [count_erase_of_not_mem _ (find_eq_none.mp found)]; rfl
    | some old =>
      rw [count_erase _ (find_eq_some.mp found)]
      simp
  rw [taken.count blocks, weight, taken.entries, taken.inFlight, if_pos blocks, count_insert]
  simp only [weight, split, decide_eq_true_eq] at before ⊢
  rcases taken.supplied with isNone | isSome
  · simp only [isNone, reduceCtorEq, if_false, true_and] at before ⊢
    omega
  · simp only [isSome, Option.some.injEq, reduceCtorEq, false_and, if_false] at before ⊢
    omega

end

section

variable (counted : controller.Counted)
include counted

theorem Counted.of_balanced
    (kept : ∀ lost, controller.Balanced lost → ∃ lost, after.Balanced lost) : after.Counted := by
  obtain ⟨lost, balanced⟩ := counted_iff.mp counted
  exact counted_iff.mpr (kept lost balanced)

theorem Counted.add : (controller.add entry).Counted :=
  counted.of_balanced fun lost balanced => ⟨lost, balanced.add⟩

theorem Counted.restore : (controller.restore entry).Counted :=
  counted.of_balanced fun lost balanced => ⟨lost, balanced.restore⟩

theorem Counted.remove : (controller.remove messageId).Counted :=
  counted.of_balanced fun lost balanced => ⟨lost, balanced.remove⟩

theorem Counted.take {queued after} (taken : controller.Taken messageId hash queued after) :
    after.Counted :=
  counted.of_balanced fun _ balanced => ⟨_, balanced.take taken⟩

theorem Counted.unblocked (blocks : controller.blockHashes = true)
    (free : controller.isHashBlocked hash = false) :
    (∀ queued ∈ controller.entries.bindings, queued.2.stickyKeyHash ≠ some hash) ∧
      ∀ inFlight ∈ controller.inFlightHashes.bindings, inFlight.2 ≠ hash := by
  have zero : controller.blockedHashes hash = 0 := by simpa [isHashBlocked] using free
  have none := counted blocks hash
  rw [zero, Nat.le_zero, weight, Nat.add_eq_zero_iff] at none
  constructor
  · intro queued member same
    have some := count_pos
      (fun queued : PendingAck => decide (queued.stickyKeyHash = .some hash)) member
      (decide_eq_true same)
    omega
  · intro inFlight member same
    have some := count_pos (fun inFlight : Int => decide (inFlight = hash)) member
      (decide_eq_true same)
    omega

end

variable {entries : List RedeliveryEntry} {fits : MessageId → Option Int → Prop}

section

variable (old : ∀ queued ∈ controller.entries.bindings, fits queued.1 queued.2.stickyKeyHash)
include old

theorem hashes_add (new : fits entry.1 entry.2.stickyKeyHash) :
    ∀ queued ∈ (controller.add entry).entries.bindings, fits queued.1 queued.2.stickyKeyHash := by
  intro queued member
  rcases hash_add member with before | ⟨same, isNew | ⟨existing, isExisting, isOld⟩⟩
  · exact old queued before
  · rw [same, isNew]
    exact new
  · rw [same, isOld]
    exact old _ isExisting

theorem hashes_restore (new : fits entry.1 entry.2.stickyKeyHash) :
    ∀ queued ∈ (controller.restore entry).entries.bindings,
      fits queued.1 queued.2.stickyKeyHash := by
  apply hashes_add _ new
  rw [release_entries]
  exact old

theorem hashes_add_all (new : ∀ entry ∈ entries, fits entry.1 entry.2.stickyKeyHash) :
    ∀ queued ∈ (entries.foldl add controller).entries.bindings,
      fits queued.1 queued.2.stickyKeyHash := by
  induction entries generalizing controller with
  | nil => exact old
  | cons entry entries ih =>
    apply ih
    · exact hashes_add old (new entry List.mem_cons_self)
    · exact fun other member => new other (List.mem_cons_of_mem _ member)

end

@[simp] theorem add_all_block :
    (entries.foldl add controller).blockHashes = controller.blockHashes := by
  induction entries generalizing controller with
  | nil => rfl
  | cons entry entries ih => exact ih.trans add_block

@[simp] theorem add_all_in_flight :
    (entries.foldl add controller).inFlightHashes = controller.inFlightHashes := by
  induction entries generalizing controller with
  | nil => rfl
  | cons entry entries ih => exact ih.trans add_in_flight

@[simp] theorem mem_add_all : messageId ∈ (entries.foldl add controller).entries ↔
      (∃ entry ∈ entries, entry.1 = messageId) ∨ messageId ∈ controller.entries := by
  induction entries generalizing controller with
  | nil => simp
  | cons entry entries ih =>
    rw [List.foldl_cons, ih, mem_add]
    simp only [List.mem_cons, or_and_right, exists_or, exists_eq_left, eq_comm (a := messageId)]
    rw [or_left_comm, or_assoc]

theorem Counted.add_all (counted : controller.Counted) :
    (entries.foldl .add controller).Counted := by
  induction entries generalizing controller with
  | nil => exact counted
  | cons entry entries ih => exact ih counted.add

def sweep (controller : RedeliveryController) (dropped : List MessageId) : RedeliveryController :=
  dropped.foldl remove controller

variable {dropped : List MessageId}

theorem sweep_cons :
    controller.sweep (messageId :: dropped) = (controller.remove messageId).sweep dropped := rfl

@[simp] theorem sweep_block : (controller.sweep dropped).blockHashes = controller.blockHashes := by
  induction dropped generalizing controller with
  | nil => rfl
  | cons messageId dropped ih => exact ih.trans remove_block

@[simp] theorem mem_sweep_entries {binding} :
    binding ∈ (controller.sweep dropped).entries.bindings ↔
      binding.1 ∉ dropped ∧ binding ∈ controller.entries.bindings := by
  induction dropped generalizing controller with
  | nil => simp [sweep]
  | cons messageId dropped ih =>
    rw [sweep_cons, ih, mem_remove_entries, List.mem_cons]
    tauto

@[simp] theorem mem_sweep : messageId ∈ (controller.sweep dropped).entries ↔
      messageId ∉ dropped ∧ messageId ∈ controller.entries := by
  simp [mem_iff]

@[simp] theorem mem_sweep_in_flight : binding ∈ (controller.sweep dropped).inFlightHashes.bindings ↔
      binding.1 ∉ dropped ∧ binding ∈ controller.inFlightHashes.bindings := by
  induction dropped generalizing controller with
  | nil => simp [sweep]
  | cons messageId dropped ih =>
    rw [sweep_cons, ih, mem_remove_in_flight, List.mem_cons]
    tauto

@[simp] theorem sweep_flies : messageId ∈ (controller.sweep dropped).inFlightHashes ↔
      messageId ∉ dropped ∧ messageId ∈ controller.inFlightHashes := by
  simp [mem_iff]

theorem Counted.sweep (counted : controller.Counted) : (controller.sweep dropped).Counted := by
  induction dropped generalizing controller with
  | nil => exact counted
  | cons messageId dropped ih => exact ih counted.remove

theorem has_in_flight_hash_iff : controller.hasInFlightHash hash = true ↔
      ∃ messageId, (messageId, hash) ∈ controller.inFlightHashes.bindings := by
  simp [hasInFlightHash]

end RedeliveryController

end PulsarLite.Broker
