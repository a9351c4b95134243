import Mathlib.Data.List.TakeWhile
import PulsarLite.Broker.SharedPass

/-!
# Turns of the Shared dispatcher

The consumers are kept in the order of their priorities, and as long as no priority
is negative, somebody with permits is always found.
-/

namespace PulsarLite.Broker.SharedDispatcher

open Library Storage List OrderedMap Option Consumer

variable {target : Int} {consumerId : Nat} {consumer owner : Nat × Consumer}

section

theorem mem_take_while_of_sorted {α : Type} {before : α → α → Prop} {holds : α → Bool}
    {list : List α} (sorted : list.Pairwise before)
    (closed : ∀ left right, before left right → holds right = true → holds left = true)
    {element : α} (member : element ∈ list) (isHeld : holds element = true) :
    element ∈ list.takeWhile holds := by
  induction list with
  | nil => cases member
  | cons first rest ih =>
    obtain ⟨least, restSorted⟩ := pairwise_cons.mp sorted
    rcases mem_cons.mp member with rfl | later
    · rw [takeWhile_cons_of_pos isHeld]
      exact mem_cons_self
    · rw [takeWhile_cons_of_pos (closed _ _ (least element later) isHeld)]
      exact mem_cons_of_mem _ (ih restSorted later)

def ByPriority (consumers : List (Nat × Consumer)) : Prop :=
  consumers.Pairwise fun left right => left.2.priorityLevel ≤ right.2.priorityLevel

variable {consumers : List (Nat × Consumer)} {current : Nat}

theorem ByPriority.le (sorted : ByPriority consumers) {left right : Nat} (ordered : left ≤ right)
    {first second : Nat × Consumer} (isFirst : consumers[left]? = some first)
    (isSecond : consumers[right]? = some second) :
    first.2.priorityLevel ≤ second.2.priorityLevel := by
  obtain ⟨leftInside, rfl⟩ := List.getElem?_eq_some_iff.mp isFirst
  obtain ⟨rightInside, rfl⟩ := List.getElem?_eq_some_iff.mp isSecond
  rcases ordered.lt_or_eq with before | rfl
  · exact pairwise_iff_getElem.mp sorted left right leftInside rightInside before
  · exact le_refl _

def NoneAvailable (consumers : List (Nat × Consumer)) (start stop : Nat) : Prop :=
  ∀ index, start ≤ index → index < stop → ¬ Available consumers index

theorem NoneAvailable.cons {start stop : Nat} (isConsumer : consumers[start]? = some consumer)
    (spent : ¬ 0 < consumer.2.availablePermits) (rest : NoneAvailable consumers (start + 1) stop) :
    NoneAvailable consumers start stop := by
  rintro index after before ⟨other, isOther, positive⟩
  rcases after.lt_or_eq with later | rfl
  · exact rest index later before ⟨other, isOther, positive⟩
  · cases isConsumer.symm.trans isOther
    exact spent positive

theorem scan_back (sorted : ByPriority consumers) (isOwner : consumers[current]? = some owner)
    (isTarget : owner.2.priorityLevel = target) (stop : Nat) (fuel scan : Nat)
    (early : scan < current) (enough : current ≤ scan + fuel)
    (first : ∀ consumer, consumers[scan]? = some consumer → target ≤ consumer.2.priorityLevel) :
    (∃ index, scanPriorityLevel consumers target current fuel scan stop = .inl (some index)) ∨
      scanPriorityLevel consumers target current fuel scan stop = .inr stop ∧
        NoneAvailable consumers scan current := by
  induction fuel generalizing scan with
  | zero => omega
  | succ fuel ih =>
    obtain ⟨inside, isInside⟩ := List.getElem?_eq_some_iff.mp isOwner
    have scanInside : scan < consumers.length := by omega
    have isScanned : consumers[scan]? = some consumers[scan] := getElem?_eq_getElem scanInside
    have atMost := sorted.le early.le isScanned isOwner
    have atLeast := first _ isScanned
    have same : consumers[scan].2.priorityLevel = target := by omega
    rw [scanPriorityLevel]
    simp only [isScanned, filter_some, same, decide_true, if_true]
    by_cases positive : 0 < consumers[scan].2.availablePermits
    · simp only [positive, if_true]
      exact .inl ⟨scan, rfl⟩
    simp only [positive, if_false]
    split_ifs with done
    · refine .inr ⟨rfl, .cons isScanned positive ?_⟩
      intro index after before
      omega
    have onwards consumer : consumers[scan + 1]? = some consumer →
        target ≤ consumer.2.priorityLevel := by
      intro isConsumer
      have later := sorted.le (Nat.le_succ scan) isScanned isConsumer
      omega
    rcases ih (scan + 1) (by omega) (by omega) onwards with found | ⟨past, none⟩
    · exact .inl found
    · exact .inr ⟨past, .cons isScanned positive none⟩

theorem first_of_priority (isOwner : consumers[current]? = some owner)
    (isTarget : owner.2.priorityLevel = target) :
    ∃ first, firstConsumerIndexOfPriority consumers target = some first ∧ first ≤ current ∧
      (∀ consumer, consumers[first]? = some consumer → consumer.2.priorityLevel = target) ∧
      ∀ index consumer, consumers[index]? = some consumer →
        consumer.2.priorityLevel = target → first ≤ index := by
  obtain ⟨inside, rfl⟩ := List.getElem?_eq_some_iff.mp isOwner
  cases isFirst : firstConsumerIndexOfPriority consumers target with
  | none =>
    have absent := findIdx?_eq_none_iff.mp isFirst _ (getElem_mem inside)
    exact absurd isTarget (of_decide_eq_false absent)
  | some first =>
    obtain ⟨firstInside, holds, least⟩ := findIdx?_eq_some_iff_getElem.mp isFirst
    have earliest index consumer : consumers[index]? = some consumer →
        consumer.2.priorityLevel = target → first ≤ index := by
      intro isConsumer same
      obtain ⟨_, rfl⟩ := List.getElem?_eq_some_iff.mp isConsumer
      by_contra early
      exact least index (not_le.mp early) (decide_eq_true same)
    refine ⟨first, rfl, earliest current _ isOwner isTarget, ?_, earliest⟩
    intro consumer isConsumer
    obtain ⟨_, rfl⟩ := List.getElem?_eq_some_iff.mp isConsumer
    exact of_decide_eq_true holds

variable (sorted : ByPriority consumers)
include sorted

/-- The whole scan, from a place after the start: somebody is found, or nobody of the
priority has permits and it ends where the lower priorities begin. -/
theorem scan_level (isOwner : consumers[current]? = some owner)
    (isTarget : owner.2.priorityLevel = target) (fuel scan stop : Nat) (late : current < scan)
    (inside : scan ≤ consumers.length) (enough : consumers.length + current + 1 ≤ scan + fuel) :
    (∃ index, scanPriorityLevel consumers target current fuel scan stop = .inl (some index)) ∨
      ∃ last, scanPriorityLevel consumers target current fuel scan stop = .inr last ∧
        NoneAvailable consumers scan last ∧
        ∀ index consumer, consumers[index]? = some consumer → index < current →
          consumer.2.priorityLevel = target → ¬ Available consumers index := by
  induction fuel generalizing scan stop with
  | zero => omega
  | succ fuel ih =>
    rw [scanPriorityLevel]
    cases isScanned : consumers[scan]?.filter
        fun consumer => decide (consumer.2.priorityLevel = target) with
    | some consumer =>
      obtain ⟨isConsumer, _⟩ := filter_eq_some_iff.mp isScanned
      obtain ⟨scanInside, _⟩ := List.getElem?_eq_some_iff.mp isConsumer
      by_cases positive : 0 < consumer.2.availablePermits
      · simp only [positive, if_true]
        exact .inl ⟨scan, rfl⟩
      have onwards : ¬ scan + 1 = current := by omega
      simp only [positive, onwards, if_false]
      rcases ih (scan + 1) stop (by omega) scanInside (by omega) with found |
        ⟨last, past, none, others⟩
      · exact .inl found
      · exact .inr ⟨last, past, .cons isConsumer positive none, others⟩
    | none =>
      obtain ⟨first, isFirst, before, hasTarget, earliest⟩ := first_of_priority isOwner isTarget
      have nothing : NoneAvailable consumers scan scan := by
        intro index after before
        omega
      simp only [isFirst]
      split_ifs with done
      · refine .inr ⟨scan, rfl, nothing, ?_⟩
        intro index consumer isConsumer early same
        have := earliest index consumer isConsumer same
        omega
      have early : first < current := by omega
      rcases scan_back sorted isOwner isTarget scan fuel first early (by omega)
        (fun consumer isConsumer => (hasTarget consumer isConsumer).ge) with found |
          ⟨past, none⟩
      · exact .inl found
      · refine .inr ⟨scan, past, nothing, ?_⟩
        intro index consumer isConsumer early same
        exact none index (earliest index consumer isConsumer same) early

theorem same_or_lower_priority_found (isOwner : consumers[current]? = some owner)
    (member : consumer ∈ consumers) (positive : 0 < consumer.2.availablePermits)
    (lower : owner.2.priorityLevel ≤ consumer.2.priorityLevel) :
    ∃ index, findAvailableConsumerFromSameOrLowerPriority consumers current = some index := by
  obtain ⟨place, isConsumer⟩ := List.getElem?_of_mem member
  obtain ⟨inside, _⟩ := List.getElem?_eq_some_iff.mp isOwner
  unfold findAvailableConsumerFromSameOrLowerPriority
  simp only [isOwner]
  split_ifs with own
  · exact ⟨current, rfl⟩
  rcases scan_level sorted isOwner rfl (consumers.length + 1) (current + 1) current (by omega)
    inside (by omega) with ⟨index, found⟩ | ⟨last, past, none, others⟩
  · simp only [found]
    exact ⟨index, rfl⟩
  simp only [past]
  have here : Available consumers place := ⟨consumer, isConsumer, positive⟩
  have beyond : last ≤ place := by
    rcases lt_trichotomy place current with early | rfl | late
    · have same := sorted.le early.le isConsumer isOwner
      exact absurd here (others place consumer isConsumer early (by omega))
    · cases isOwner.symm.trans isConsumer
      exact absurd positive own
    · by_contra early
      exact none place late (not_le.mp early) here
  have searched : consumer ∈ consumers.drop last := by
    apply mem_of_getElem? (i := place - last)
    rw [getElem?_drop, Nat.add_sub_of_le beyond, isConsumer]
  cases isFound : (consumers.drop last).findIdx? fun consumer =>
      decide (0 < consumer.2.availablePermits) with
  | none =>
    have absent := findIdx?_eq_none_iff.mp isFound _ searched
    exact absurd positive (of_decide_eq_false absent)
  | some index => exact ⟨last + index, rfl⟩

theorem next_consumer_found (natural : ∀ consumer ∈ consumers, 0 ≤ consumer.2.priorityLevel)
    (inside : current < consumers.length) (member : consumer ∈ consumers)
    (positive : 0 < consumer.2.availablePermits) :
    ∃ index, nextConsumerIndex consumers current = some index := by
  have isOwner : consumers[current]? = some consumers[current] := getElem?_eq_getElem inside
  unfold nextConsumerIndex
  simp only [isOwner]
  by_cases lower : consumers[current].2.priorityLevel ≤ consumer.2.priorityLevel
  · obtain ⟨index, found⟩ := same_or_lower_priority_found sorted isOwner member positive lower
    rw [found, ← isSome_iff_exists, isSome_or, isSome_some, Bool.or_true]
  have higher : consumer.2.priorityLevel < consumers[current].2.priorityLevel := not_le.mp lower
  have atLeast := natural consumer member
  have some : consumers[current].2.priorityLevel ≠ 0 := by omega
  -- consumers of a higher priority come first
  have searched : consumer ∈ (consumers.take current).takeWhile fun other =>
      decide (other.2.priorityLevel < consumers[current].2.priorityLevel) := by
    obtain ⟨place, isConsumer⟩ := getElem?_of_mem member
    have early : place < current := by
      by_contra late
      exact lower (sorted.le (not_lt.mp late) isOwner isConsumer)
    apply mem_take_while_of_sorted (sorted.sublist (take_sublist _ _))
    · intro left right before after
      exact decide_eq_true (before.trans_lt (of_decide_eq_true after))
    · apply mem_of_getElem? (i := place)
      rw [getElem?_take_of_lt early, isConsumer]
    · exact decide_eq_true higher
  rw [if_pos some, ← isSome_iff_exists, isSome_or]
  cases isFound : findAvailableConsumerFromHigherPriority consumers current
      consumers[current].2.priorityLevel with
  | none =>
    have absent := findIdx?_eq_none_iff.mp isFound _ searched
    exact absurd positive (of_decide_eq_false absent)
  | some index => rfl

end

section

/-- The same consumers are connected, with the same priorities. -/
def Ranked (before after : OrderedMap Nat Consumer) : Prop :=
  after.bindings.map (fun consumer => (consumer.1, consumer.2.priorityLevel)) =
    before.bindings.map fun consumer => (consumer.1, consumer.2.priorityLevel)

section

variable {before after : OrderedMap Nat Consumer} (ranked : Ranked before after)
include ranked

theorem Ranked.keys : after.keys = before.keys := by
  have ids := congrArg (map Prod.fst) ranked
  rwa [List.map_map, List.map_map] at ids

theorem Ranked.levels {consumer : Nat × Consumer} (member : consumer ∈ after.bindings) :
    ∃ old, (consumer.1, old) ∈ before.bindings ∧ old.priorityLevel = consumer.2.priorityLevel := by
  obtain ⟨⟨_, old⟩, isOld, same⟩ := mem_map.mp (ranked ▸ mem_map_of_mem member)
  obtain ⟨rfl, level⟩ := Prod.mk.inj same
  exact ⟨old, isOld, level⟩

end

/-- Everybody who is connected has one place, and the places go by priority. -/
structure Arranged (dispatcher : SharedDispatcher) : Prop where
  places : ∀ consumerId, consumerId ∈ dispatcher.consumerOrder ↔ consumerId ∈ dispatcher.consumers
  nodup : dispatcher.consumerOrder.Nodup
  sorted : dispatcher.consumerOrder.Pairwise fun left right => ∀ first second,
    (left, first) ∈ dispatcher.consumers.bindings →
      (right, second) ∈ dispatcher.consumers.bindings →
      first.priorityLevel ≤ second.priorityLevel

variable {dispatcher : SharedDispatcher}

theorem Arranged.new : Arranged new where
  places _ := Iff.rfl
  nodup := nodup_nil
  sorted := List.Pairwise.nil

section

variable (arranged : Arranged dispatcher)
include arranged

theorem Arranged.ranked {after} (order : after.consumerOrder = dispatcher.consumerOrder)
    (ranked : Ranked dispatcher.consumers after.consumers) : Arranged after where
  places consumerId := by
    rw [order, arranged.places]
    change consumerId ∈ dispatcher.consumers.keys ↔ consumerId ∈ after.consumers.keys
    rw [ranked.keys]
  nodup := order ▸ arranged.nodup
  sorted := by
    rw [order]
    apply arranged.sorted.imp
    intro left right before first second isFirst isSecond
    obtain ⟨oldFirst, wasFirst, sameFirst⟩ := ranked.levels isFirst
    obtain ⟨oldSecond, wasSecond, sameSecond⟩ := ranked.levels isSecond
    rw [← sameFirst, ← sameSecond]
    exact before oldFirst oldSecond wasFirst wasSecond

theorem Arranged.by_priority : ByPriority dispatcher.orderedConsumers := by
  unfold ByPriority orderedConsumers
  rw [pairwise_filterMap]
  apply arranged.sorted.imp
  intro left right before first isFirst second isSecond
  obtain ⟨leftConsumer, foundLeft, rfl⟩ := map_eq_some_iff.mp isFirst
  obtain ⟨rightConsumer, foundRight, rfl⟩ := map_eq_some_iff.mp isSecond
  exact before _ _ (find_eq_some.mp foundLeft) (find_eq_some.mp foundRight)

theorem Arranged.ordered (member : consumer ∈ dispatcher.consumers.bindings) :
    consumer ∈ dispatcher.orderedConsumers := by
  apply mem_filterMap.mpr
  refine ⟨consumer.1, (arranged.places _).mpr (mem_of_binding member), ?_⟩
  rw [find_eq_some.mpr member]
  rfl

end

theorem insert_before_first {α : Type} (holds : α → Bool) (list : List α) (element : α) :
    list.insertIdx ((list.findIdx? holds).getD list.length) element =
      list.takeWhile (fun other => !holds other) ++ element ::
        list.dropWhile fun other => !holds other := by
  induction list with
  | nil => rfl
  | cons first rest ih =>
    cases isHeld : holds first with
    | true => simp [findIdx?_cons, isHeld]
    | false =>
      have shifted : ((first :: rest).findIdx? holds).getD (first :: rest).length =
          (rest.findIdx? holds).getD rest.length + 1 := by
        rw [findIdx?_cons, isHeld]
        cases rest.findIdx? holds with
        | none | some => rfl
      rw [shifted, insertIdx_succ_cons, ih]
      simp [isHeld]

variable (arranged : Arranged dispatcher)
include arranged

theorem Arranged.join {consumer joined}
    (added : dispatcher.addConsumer consumerId consumer = some joined) : Arranged joined := by
  unfold addConsumer at added
  split_ifs at added with known
  cases added
  -- who of the others comes after the new consumer
  let below : Nat → Bool := fun existing =>
    ((dispatcher.consumers.insert consumerId consumer).find existing).any fun other =>
      decide (consumer.priorityLevel < other.priorityLevel)
  have order : (insertConsumerOrder { dispatcher with
      consumers := dispatcher.consumers.insert consumerId consumer } consumerId
      consumer.priorityLevel).consumerOrder =
        dispatcher.consumerOrder.takeWhile (fun other => !below other) ++ consumerId ::
          dispatcher.consumerOrder.dropWhile fun other => !below other :=
    insert_before_first below dispatcher.consumerOrder consumerId
  have split := takeWhile_append_dropWhile (p := fun other => !below other)
    (l := dispatcher.consumerOrder)
  have perm : (insertConsumerOrder { dispatcher with
      consumers := dispatcher.consumers.insert consumerId consumer } consumerId
      consumer.priorityLevel).consumerOrder.Perm (consumerId :: dispatcher.consumerOrder) := by
    rw [order]
    exact perm_middle.trans (by rw [split])
  have absent : consumerId ∉ dispatcher.consumerOrder := fun member =>
    known ((arranged.places consumerId).mp member)
  have old : ∀ {other value}, other ∈ dispatcher.consumerOrder →
      (other, value) ∈ (dispatcher.consumers.insert consumerId consumer).bindings →
      (other, value) ∈ dispatcher.consumers.bindings := by
    intro other value placed member
    rcases mem_bindings_insert.mp member with same | ⟨_, unchanged⟩
    · cases same
      exact absurd placed absent
    · exact unchanged
  constructor
  · intro other
    rw [perm.mem_iff, mem_cons, arranged.places]
    exact mem_insert.symm
  · rw [perm.nodup_iff, nodup_cons]
    exact ⟨absent, arranged.nodup⟩
  have sorted : (dispatcher.consumerOrder.takeWhile (fun other => !below other) ++
      dispatcher.consumerOrder.dropWhile fun other => !below other).Pairwise
        fun left right => ∀ first second,
          (left, first) ∈ (dispatcher.consumers.insert consumerId consumer).bindings →
          (right, second) ∈ (dispatcher.consumers.insert consumerId consumer).bindings →
            first.priorityLevel ≤ second.priorityLevel := by
    rw [split]
    apply arranged.sorted.imp_of_mem
    intro left right placedLeft placedRight before first second isFirst isSecond
    exact before _ _ (old placedLeft isFirst) (old placedRight isSecond)
  obtain ⟨front, back, across⟩ := pairwise_append.mp sorted
  have own : ∀ {value}, (consumerId, value) ∈
      (dispatcher.consumers.insert consumerId consumer).bindings → value = consumer := by
    intro value member
    have isNew : (consumerId, consumer) ∈
        (dispatcher.consumers.insert consumerId consumer).bindings :=
      mem_bindings_insert.mpr (.inl rfl)
    exact congrArg Prod.snd (value_unique member isNew rfl)
  rw [order, pairwise_append, pairwise_cons]
  refine ⟨front, ⟨?_, back⟩, ?_⟩
  · intro right isRight first second isFirst isSecond
    rw [own isFirst]
    have next := head?_dropWhile_not (fun other => !below other) dispatcher.consumerOrder
    generalize dispatcher.consumerOrder.dropWhile (fun other => !below other) = late at *
    cases late with
    | nil => cases isRight
    | cons head rest =>
      obtain ⟨value, isValue, lower⟩ : ∃ value,
          (head, value) ∈ (dispatcher.consumers.insert consumerId consumer).bindings ∧
            consumer.priorityLevel < value.priorityLevel := by
        simpa [below, Option.any_eq_true, find_eq_some] using next
      rcases mem_cons.mp isRight with rfl | later
      · have same : value = second := congrArg Prod.snd (value_unique isValue isSecond rfl)
        exact same ▸ lower.le
      · exact lower.le.trans ((pairwise_cons.mp back).1 right later value second isValue isSecond)
  · intro left isLeft right isRight
    rcases mem_cons.mp isRight with rfl | later
    · intro first second isFirst isSecond
      rw [own isSecond]
      have above := mem_takeWhile_imp isLeft
      have found : (dispatcher.consumers.insert right consumer).find left = some first :=
        find_eq_some.mpr isFirst
      simpa [below, found] using above
    · exact across left isLeft right later

theorem Arranged.leave (consumerId : Nat) :
    Arranged (dispatcher.removeConsumerWithRecovery consumerId) := by
  unfold removeConsumerWithRecovery
  cases found : dispatcher.consumers.find consumerId with
  | none => exact arranged
  | some consumer =>
    have placed : consumerId ∈ dispatcher.consumerOrder :=
      (arranged.places consumerId).mpr (mem_of_find found)
    cases isPlace : dispatcher.consumerOrder.findIdx?
        fun existing => decide (existing = consumerId) with
    | none =>
      have absent := findIdx?_eq_none_iff.mp isPlace _ placed
      simp at absent
    | some index =>
      obtain ⟨inside, isHere, _⟩ := findIdx?_eq_some_iff_getElem.mp isPlace
      have same : dispatcher.consumerOrder[index] = consumerId := of_decide_eq_true isHere
      have perm := getElem_cons_eraseIdx_perm inside
      rw [same] at perm
      have distinct := nodup_cons.mp (perm.nodup_iff.mpr arranged.nodup)
      simp only [removeConsumerOrder, isPlace, modify]
      constructor
      · intro other
        have members := perm.mem_iff (a := other)
        rw [mem_cons, arranged.places] at members
        change other ∈ dispatcher.consumerOrder.eraseIdx index ↔
          other ∈ dispatcher.consumers.erase consumerId
        rw [mem_erase, ← members]
        constructor
        · exact fun stays => ⟨fun same => distinct.1 (same ▸ stays), .inr stays⟩
        · exact fun stays => stays.2.resolve_left stays.1
      · exact distinct.2
      · apply (arranged.sorted.sublist (eraseIdx_sublist _ _)).imp
        intro left right before first second isFirst isSecond
        exact before first second (mem_bindings_erase.mp isFirst).2
          (mem_bindings_erase.mp isSecond).2

theorem Arranged.turn
    (natural : ∀ consumer ∈ dispatcher.consumers.bindings, 0 ≤ consumer.2.priorityLevel)
    (member : consumer ∈ dispatcher.consumers.bindings)
    (positive : 0 < consumer.2.availablePermits) :
    ∃ chosen, dispatcher.getNextAvailableConsumer.1 = some chosen := by
  have ordered := arranged.ordered member
  have some : 0 < dispatcher.orderedConsumers.length := length_pos_of_mem ordered
  obtain ⟨index, found⟩ := next_consumer_found arranged.by_priority
    (fun other isOther => natural other (ordered_consumers_connected isOther))
    (Nat.mod_lt dispatcher.roundRobinIndex some) ordered positive
  obtain ⟨chosen, isChosen, _⟩ := next_consumer_available found
  refine ⟨chosen, ?_⟩
  simp only [getNextAvailableConsumer, found, isChosen]

end

end PulsarLite.Broker.SharedDispatcher
