import PulsarLite.Broker.KeyOwnership

/-!
# How the hashes are divided

With AutoSplit the shares partition the hashes, and both kinds of topic cut them
alike. In Sticky mode the clients bring the ranges themselves, and a consumer is
admitted for its mode alone: two of them may claim the same hash.
-/

namespace PulsarLite.Broker

open Library List OrderedMap

namespace NonPersistentStickyKeyDispatcher

/-- The values of the hash map come in any order and are sorted by id. -/
def autoSplit (consumers : List (Nat × Consumer)) : List (KeySharedHashRange × Nat) :=
  let consumerIds := (consumers.map Prod.fst).mergeSort fun left right => decide (left ≤ right)
  consumerIds.zipIdx.map fun consumer =>
    (KeySharedDispatcher.autoSplitRange consumer.2 consumerIds.length, consumer.1)

end NonPersistentStickyKeyDispatcher

namespace KeySharedDispatcher

variable {consumers : OrderedMap Nat Consumer}

theorem non_persistent_auto_split {values : List (Nat × Consumer)}
    (same : values.Perm consumers.bindings) :
    NonPersistentStickyKeyDispatcher.autoSplit values = autoSplit consumers := by
  have sorted : (values.map Prod.fst).mergeSort (fun left right => decide (left ≤ right)) =
      consumers.keys := by
    have ascending : ((values.map Prod.fst).mergeSort fun left right =>
        decide (left ≤ right)).Pairwise fun left right => decide (left ≤ right) = true :=
      pairwise_mergeSort (fun left middle right => by simpa using Nat.le_trans)
        (fun left right => by simpa using Nat.le_total left right) _
    refine List.Perm.eq_of_pairwise (fun _ _ _ _ => Nat.le_antisymm)
      (ascending.imp of_decide_eq_true) ?_ ((mergeSort_perm _ _).trans (same.map _))
    exact (pairwise_map.mpr consumers.sorted).imp Nat.le_of_lt
  simp only [NonPersistentStickyKeyDispatcher.autoSplit, autoSplit, sorted]

theorem auto_split_ids : (autoSplit consumers).map Prod.snd = consumers.keys := by
  rw [autoSplit, map_map]
  exact zipIdx_map_fst 0 _

theorem auto_split_pairwise (few : consumers.keys.length ≤ 32767) :
    (autoSplit consumers).Pairwise fun left right => left.1.stop < right.1.start := by
  rw [pairwise_iff_getElem]
  intro left right leftBound rightBound before
  have within : right < consumers.keys.length := by
    simpa [autoSplit] using rightBound
  simpa [autoSplit] using auto_split_range_before before within few

theorem cut_between (total hash : Nat) (within : hash < 65536) (positive : 0 < total) :
    ∃ index < total, index * 65536 / total ≤ hash ∧ hash < (index + 1) * 65536 / total := by
  have last : hash < total * 65536 / total := by
    rwa [Nat.mul_div_cancel_left _ positive]
  -- the least index whose share ends after the hash
  have exists_end : ∃ index, hash < (index + 1) * 65536 / total :=
    ⟨total - 1, by rwa [Nat.sub_add_cancel positive]⟩
  refine ⟨Nat.find exists_end, ?_, ?_, Nat.find_spec exists_end⟩
  · have least := Nat.find_min' exists_end (m := total - 1) (by rwa [Nat.sub_add_cancel positive])
    omega
  · rcases isIndex : Nat.find exists_end with _ | index
    · simp
    · exact Nat.not_lt.mp (Nat.find_min exists_end (m := index) (by omega))

theorem auto_split_covers (occupied : 1 ≤ consumers.keys.length)
    (few : consumers.keys.length ≤ 32767) (hash : Int) :
    (∃ consumerId, Owns consumers consumerId hash) ↔ 0 ≤ hash ∧ hash ≤ 65535 := by
  constructor
  · rintro ⟨consumerId, owns⟩
    obtain ⟨index, found, start, stop⟩ := owns_iff.mp owns
    obtain ⟨bound, _⟩ := List.getElem?_eq_some_iff.mp found
    rw [auto_split_range_eq bound few] at start stop
    have last : (index + 1) * 65536 / consumers.keys.length ≤ 65536 :=
      Nat.div_le_of_le_mul (Nat.mul_le_mul_right _ bound)
    dsimp only at start stop
    exact ⟨(Int.natCast_nonneg _).trans start, by omega⟩
  rintro ⟨low, high⟩
  obtain ⟨index, bound, start, stop⟩ :=
    cut_between consumers.keys.length hash.toNat (by omega) occupied
  refine ⟨_, owns_iff.mpr ⟨index, getElem?_eq_getElem bound, ?_⟩⟩
  rw [auto_split_range_eq bound few]
  dsimp only
  omega

theorem auto_split_size (few : consumers.keys.length ≤ 32767) {share : KeySharedHashRange × Nat}
    (member : share ∈ autoSplit consumers) :
    (65536 / consumers.keys.length : Nat) ≤ share.1.stop - share.1.start + 1 ∧
      share.1.stop - share.1.start + 1 ≤ (65536 / consumers.keys.length : Nat) + 1 := by
  obtain ⟨index, found, isRange⟩ := mem_auto_split.mp member
  obtain ⟨bound, _⟩ := List.getElem?_eq_some_iff.mp found
  rw [isRange, auto_split_range_eq bound few, Nat.add_mul, Nat.one_mul,
    Nat.add_div (Nat.zero_lt_of_lt bound)]
  dsimp only
  split <;> omega

theorem sticky_key_hash_range (stickyKey : Bytes) :
    0 ≤ stickyKeyHash stickyKey ∧ stickyKeyHash stickyKey ≤ 65535 := by
  have below : (murmur332 stickyKey 0 % stickyRangeSize).toNat < 65536 := by
    rw [UInt32.toNat_mod]
    exact Nat.mod_lt _ (by decide)
  unfold stickyKeyHash
  omega

/-- AutoSplit partitions the hashes among any number of consumers that stays within
`i32`, and the owner of a message does not depend on the permits. -/
theorem auto_split_partition (decode : Decode) (consumers : OrderedMap Nat Consumer)
    (occupied : 1 ≤ consumers.keys.length) (fits : consumers.keys.length * 65536 < 2 ^ 31) :
    (∀ values : List (Nat × Consumer), values.Perm consumers.bindings →
      NonPersistentStickyKeyDispatcher.autoSplit values = autoSplit consumers) ∧
    ((autoSplit consumers).map Prod.snd = consumers.keys ∧ consumers.keys.Pairwise (· < ·)) ∧
    ((autoSplit consumers).Pairwise fun left right => left.1.stop < right.1.start) ∧
    (∀ hash, (∃ consumerId, Owns consumers consumerId hash) ↔ 0 ≤ hash ∧ hash ≤ 65535) ∧
    (∀ left ∈ autoSplit consumers, ∀ right ∈ autoSplit consumers,
      left.1.stop - left.1.start ≤ right.1.stop - right.1.start + 1) ∧
    (∀ stickyKey, 0 ≤ stickyKeyHash stickyKey ∧ stickyKeyHash stickyKey ≤ 65535) ∧
    ∀ metadata, ∃ owner, ∀ consumerId,
      (Owns consumers consumerId (stickyKeyHashFromMetadata decode metadata) ↔
        consumerId = owner) ∧
      ∀ dispatcher : KeySharedDispatcher, dispatcher.keySharedPolicy.mode = .autoSplit →
        dispatcher.autoSplitAssignments = autoSplit consumers →
        ∀ consumer, dispatcher.selectConsumerForHash (stickyKeyHashFromMetadata decode metadata) =
          some (consumerId, consumer) → consumerId = owner := by
  have few : consumers.keys.length ≤ 32767 := by omega
  refine ⟨fun _ => non_persistent_auto_split, ⟨auto_split_ids, pairwise_map.mpr consumers.sorted⟩,
    auto_split_pairwise few, auto_split_covers occupied few, ?_, sticky_key_hash_range, ?_⟩
  · intro left leftMember right rightMember
    have leftSize := auto_split_size few leftMember
    have rightSize := auto_split_size few rightMember
    omega
  intro metadata
  obtain ⟨owner, owns⟩ := (auto_split_covers occupied few _).mpr
    (sticky_key_hash_range (resolveStickyKey decode metadata))
  refine ⟨owner, fun consumerId => ⟨⟨fun other => owner_unique few other owns, ?_⟩, ?_⟩⟩
  · rintro rfl
    exact owns
  · intro dispatcher mode assigned consumer selected
    obtain ⟨⟨share, member, within⟩, _⟩ := select_consumer_some selected
    rw [activeAssignments, mode, assigned] at member
    exact owner_unique few ⟨share, member, within⟩ owns

def sampleConsumers : OrderedMap Nat Consumer :=
  (OrderedMap.empty.insert 3 (.new [] 0 none)).insert 1 (.new [] 0 none)

theorem two_shares_apart :
    (autoSplit sampleConsumers).Pairwise fun left right => left.1.stop < right.1.start :=
  (auto_split_partition (fun _ => none) sampleConsumers (by decide) (by decide)).2.2.1

def Claims (consumer : Consumer) (hash : Int) : Prop :=
  ∃ range ∈ stickyRangesForConsumer consumer, range.start ≤ hash ∧ hash ≤ range.stop

inductive Change
  | join (consumerId : Nat) (consumer : Consumer)
  | leave (consumerId : Nat)

variable (dispatcher : KeySharedDispatcher)

def change : Change → KeySharedDispatcher
  | .join consumerId consumer => (dispatcher.addConsumer consumerId consumer).getD dispatcher
  | .leave consumerId => dispatcher.removeConsumerWithRecovery consumerId

def SingleOwner : Prop :=
  ∀ hash : Int, 0 ≤ hash → hash ≤ 65535 → ∀ left ∈ dispatcher.consumers.bindings,
    ∀ right ∈ dispatcher.consumers.bindings, Claims left.2 hash → Claims right.2 hash →
      left.1 = right.1

/-- The same consumers, with other permits and other writability. -/
def Retuned (before after : OrderedMap Nat Consumer) : Prop :=
  after.keys = before.keys ∧ ∀ consumer ∈ after.bindings, ∃ old,
    (consumer.1, old) ∈ before.bindings ∧ consumer.2 = { old with
      availablePermits := consumer.2.availablePermits
      isWritable := consumer.2.isWritable }

/-- Whatever the permits, a chosen consumer stays chosen as long as it does not change
itself. -/
def StableChoice : Prop :=
  ∀ before after, Retuned dispatcher.consumers before → Retuned dispatcher.consumers after →
    ∀ hash : Int, 0 ≤ hash → hash ≤ 65535 → ∀ chosen,
      selectConsumerForHash { dispatcher with consumers := before } hash = some chosen →
        after.find chosen.1 = some chosen.2 →
          selectConsumerForHash { dispatcher with consumers := after } hash = some chosen

/-- An admitted consumer claims no hash that a connected one claims. -/
def Apart : Change → Prop
  | .join consumerId consumer => (dispatcher.addConsumer consumerId consumer).isSome →
    ∀ hash : Int, 0 ≤ hash → hash ≤ 65535 → ∀ other ∈ dispatcher.consumers.bindings,
      ¬ (Claims consumer hash ∧ Claims other.2 hash)
  | .leave _ => True

structure Assigned (dispatcher : KeySharedDispatcher) : Prop where
  mode : dispatcher.keySharedPolicy.mode = .sticky
  single : SingleOwner dispatcher
  claimed : ∀ assignment ∈ dispatcher.stickyAssignments, ∃ consumer,
    (assignment.2, consumer) ∈ dispatcher.consumers.bindings ∧
      assignment.1 ∈ stickyRangesForConsumer consumer

variable {dispatcher : KeySharedDispatcher}

theorem rebuilt_assigned (mode : dispatcher.keySharedPolicy.mode = .sticky)
    (single : SingleOwner dispatcher) : Assigned dispatcher.rebuildAssignments := by
  refine ⟨mode, single, fun assignment member => ?_⟩
  obtain ⟨⟨consumerId, consumer⟩, isConsumer, inRanges⟩ :=
    mem_flatMap.mp ((mergeSort_perm _ _).mem_iff.mp member)
  obtain ⟨range, isRange, rfl⟩ := mem_map.mp inRanges
  exact ⟨consumer, isConsumer, isRange⟩

theorem find_some_congr {α β : Type} {items : List α} {first second : α → Option β}
    (same : ∀ item ∈ items, first item = second item) :
    items.findSome? first = items.findSome? second := by
  induction items with
  | nil => rfl
  | cons item items ih =>
    rw [findSome?_cons, findSome?_cons, same item mem_cons_self,
      ih fun other member => same other (mem_cons_of_mem _ member)]

section

variable (assigned : Assigned dispatcher)
include assigned

/-- With one owner for each hash only that owner is ever looked at. -/
theorem Assigned.stable : StableChoice dispatcher := by
  intro before after _ _ hash low high chosen selected found
  have isActive consumers : activeAssignments { dispatcher with consumers := consumers } =
      dispatcher.stickyAssignments := by
    rw [activeAssignments, assigned.mode]
  obtain ⟨⟨owned, ownedMember, isOwner, owns⟩, isChosen, _⟩ := select_consumer_some selected
  rw [isActive] at ownedMember
  obtain ⟨first, isFirst, hasOwned⟩ := assigned.claimed owned ownedMember
  unfold selectConsumerForHash at selected ⊢
  rw [isActive] at selected ⊢
  rw [← selected]
  refine find_some_congr fun assignment member => ?_
  split_ifs with within
  · obtain ⟨second, isSecond, hasRange⟩ := assigned.claimed assignment member
    have same : assignment.2 = chosen.1 :=
      isOwner ▸ assigned.single hash low high _ isSecond _ isFirst
      ⟨_, hasRange, within⟩ ⟨_, hasOwned, owns⟩
    rw [same, found, find_eq_some.mpr isChosen]
  · rfl

theorem Assigned.join {joined consumerId consumer}
    (isJoined : dispatcher.addConsumer consumerId consumer = some joined)
    (apart : Apart dispatcher (.join consumerId consumer)) : Assigned joined := by
  have apart := apart (by rw [isJoined]; rfl)
  unfold addConsumer at isJoined
  split_ifs at isJoined
  cases isJoined
  refine rebuilt_assigned assigned.mode ?_
  intro hash low high left leftMember right rightMember claimsLeft claimsRight
  rcases mem_bindings_insert.mp leftMember with rfl | ⟨_, leftOld⟩
  · rcases mem_bindings_insert.mp rightMember with rfl | ⟨_, rightOld⟩
    · rfl
    · exact (apart hash low high _ rightOld ⟨claimsLeft, claimsRight⟩).elim
  · rcases mem_bindings_insert.mp rightMember with rfl | ⟨_, rightOld⟩
    · exact (apart hash low high _ leftOld ⟨claimsRight, claimsLeft⟩).elim
    · exact assigned.single hash low high _ leftOld _ rightOld claimsLeft claimsRight

theorem Assigned.leave (consumerId : Nat) :
    Assigned (dispatcher.removeConsumerWithRecovery consumerId) := by
  unfold removeConsumerWithRecovery
  split
  · exact rebuilt_assigned assigned.mode assigned.single
  · refine rebuilt_assigned assigned.mode fun hash low high left leftMember right rightMember => ?_
    exact assigned.single hash low high _ (mem_bindings_erase.mp leftMember).2 _
      (mem_bindings_erase.mp rightMember).2

end

theorem Assigned.change (action : Change) (assigned : Assigned dispatcher)
    (apart : Apart dispatcher action) :
    Assigned (dispatcher.change action) := by
  cases action with
  | join consumerId consumer =>
    show Assigned ((dispatcher.addConsumer consumerId consumer).getD dispatcher)
    cases isJoined : dispatcher.addConsumer consumerId consumer with
    | none => exact assigned
    | some joined => exact assigned.join isJoined apart
  | leave consumerId => exact assigned.leave consumerId

theorem SingleOwner.apart {action : Change} (single : SingleOwner (dispatcher.change action)) :
    Apart dispatcher action := by
  cases action with
  | leave => trivial
  | join consumerId consumer =>
    intro isJoined hash low high other member
    obtain ⟨joined, isJoined⟩ := Option.isSome_iff_exists.mp isJoined
    rw [change, isJoined] at single
    unfold addConsumer at isJoined
    split_ifs at isJoined with present
    cases isJoined
    have different : other.1 ≠ consumerId := by
      rintro rfl
      exact present (mem_of_binding member)
    rintro ⟨claims, claimsOther⟩
    exact different (single hash low high other
      (mem_bindings_insert.mpr (.inr ⟨different, member⟩)) (consumerId, consumer)
      (mem_bindings_insert.mpr (.inl rfl)) claimsOther claims)

def OwnersStable (policy : KeySharedPolicy) (changes : List Change) : Prop :=
  ∀ before after, changes = before ++ after →
    SingleOwner (before.foldl change (new (some policy))) ∧
      StableChoice (before.foldl change (new (some policy)))

/-- Each hash has one owner and keeps it in every state on the way if and only if no
admitted consumer claims a hash of a connected one. -/
theorem sticky_single_owner_iff (policy : KeySharedPolicy) (sticky : policy.mode = .sticky)
    (changes : List Change) :
    OwnersStable policy changes ↔ Run.Permits change Apart (new (some policy)) changes := by
  constructor
  · intro each
    refine Run.permits_iff.mpr fun before action after split => SingleOwner.apart ?_
    have next := (each (before ++ [action]) after (by rw [split, append_assoc]; rfl)).1
    rwa [foldl_append] at next
  rintro permits before after rfl
  have start : Assigned (new (some policy)) :=
    ⟨sticky, fun _ _ _ _ member => absurd member not_mem_nil,
      fun _ member => absurd member not_mem_nil⟩
  have assigned := (Run.of_permits (Run.permits_of_append permits)).invariant start
    fun _ action assigned apart => assigned.change action apart
  exact ⟨assigned.single, assigned.stable⟩

def sampleRange : KeySharedPolicy := ⟨.sticky, [⟨0, 65535⟩], false⟩

def sampleClaimant (permits : Int) : Consumer :=
  { Consumer.new [] 0 (some sampleRange) with availablePermits := permits }

def samplePair (permits : Int) : OrderedMap Nat Consumer :=
  (OrderedMap.empty.insert 1 (sampleClaimant permits)).insert 2 (sampleClaimant 1)

def sampleShare (start stop : Int) : Consumer :=
  .new [] 0 (some ⟨.sticky, [⟨start, stop⟩], false⟩)

def sampleShares : List Change :=
  [.join 1 (sampleShare 0 7), .join 2 (sampleShare 8 65535)]

theorem split_range_single_owners : OwnersStable sampleRange sampleShares := by
  refine (sticky_single_owner_iff sampleRange rfl sampleShares).mpr
    ⟨fun _ _ _ _ _ member => absurd member not_mem_nil, fun _ hash _ _ other member => ?_, trivial⟩
  rintro ⟨⟨upper, isUpper, above, _⟩, lower, isLower, _, below⟩
  cases mem_singleton.mp member
  cases mem_singleton.mp isUpper
  cases mem_singleton.mp isLower
  exact absurd (above.trans below) (by decide)

def sampleOverlap : KeySharedDispatcher :=
  [.join 1 (sampleClaimant 0), .join 2 (sampleClaimant 1)].foldl change (new (some sampleRange))

/-- Both consumers bring all hashes. The second one has them until the first gets a
permit. -/
theorem overlapping_ranges_two_owners :
    ¬ SingleOwner sampleOverlap ∧ ¬ StableChoice sampleOverlap := by
  have claims permits : Claims (sampleClaimant permits) 7 :=
    ⟨⟨0, 65535⟩, mem_singleton_self _, by decide, by decide⟩
  have assigned : stickySplit (samplePair 0) = [(⟨0, 65535⟩, 1), (⟨0, 65535⟩, 2)] :=
    -- the sort does not evaluate in the kernel
    mergeSort_of_pairwise (by decide)
  constructor
  · intro single
    exact absurd (single 7 (by decide) (by decide) (1, sampleClaimant 0) (by decide)
      (2, sampleClaimant 1) (by decide) (claims 0) (claims 1)) (by decide)
  intro stable
  have same := stable (samplePair 0) (samplePair 1)
    ⟨rfl, fun consumer member => ⟨consumer.2, member, rfl⟩⟩
    ⟨rfl, by
      rintro consumer member
      rcases mem_pair.mp member with rfl | rfl
      · exact ⟨sampleClaimant 0, by decide, rfl⟩
      · exact ⟨sampleClaimant 1, by decide, rfl⟩⟩
    7 (by decide) (by decide) (2, sampleClaimant 1)
    ((congrArg (findSome? _) assigned).trans (by decide)) (by decide)
  have moved := (congrArg (findSome? _) assigned).symm.trans same
  revert moved
  decide

end KeySharedDispatcher

end PulsarLite.Broker
