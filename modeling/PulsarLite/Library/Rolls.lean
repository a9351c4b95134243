import Mathlib.Logic.Function.Basic
import PulsarLite.Library.OrderedMap

/-!
# Rolls

Members enter rooms under numbers of their own choice. A room lists who is there under
which number; a member holds which number stands for which room. A room keeps one
member for a number, and a member one room for a number, so that a listing or a holding
is lost when a number is used again.
-/

namespace PulsarLite.Library

open OrderedMap Function List

variable {ι υ : Type} [DecidableEq ι] {family : ι → OrderedMap Nat υ} {index place : ι}
  {number count : Nat} {value entry : υ}

theorem mem_update_insert : (count, entry) ∈
        (update family index ((family index).insert number value) place).bindings ↔
      place = index ∧ count = number ∧ entry = value ∨
        ¬(place = index ∧ count = number) ∧ (count, entry) ∈ (family place).bindings := by
  by_cases isIndex : place = index
  · subst isIndex
    rw [update_self, mem_bindings_insert, Prod.mk.injEq]
    tauto
  · rw [update_of_ne isIndex]
    tauto

theorem mem_update_erase :
    (count, entry) ∈ (update family index ((family index).erase number) place).bindings ↔
      ¬(place = index ∧ count = number) ∧ (count, entry) ∈ (family place).bindings := by
  by_cases isIndex : place = index
  · subst isIndex
    rw [update_self, mem_bindings_erase]
    tauto
  · rw [update_of_ne isIndex]
    tauto

@[ext] structure Roll (κ : Type) where
  listed : κ → OrderedMap Nat Nat
  held : Nat → OrderedMap Nat κ

namespace Roll

variable {κ : Type} [DecidableEq κ] (member : Nat) (room : κ) (number : Nat)

def enter (roll : Roll κ) : Roll κ where
  listed := update roll.listed room ((roll.listed room).insert number member)
  held := update roll.held member ((roll.held member).insert number room)

def leave (roll : Roll κ) : Roll κ where
  listed := update roll.listed room ((roll.listed room).erase number)
  held := update roll.held member ((roll.held member).erase number)

def Lists (roll : Roll κ) (room : κ) (number member : Nat) : Prop :=
  (number, member) ∈ (roll.listed room).bindings

def Holds (roll : Roll κ) (member number : Nat) (room : κ) : Prop :=
  (number, room) ∈ (roll.held member).bindings

variable {roll : Roll κ} {member person number : Nat} {room place : κ}

theorem lists_enter : (roll.enter member room number).Lists place count person ↔
    place = room ∧ count = number ∧ person = member ∨
      ¬(place = room ∧ count = number) ∧ roll.Lists place count person :=
  mem_update_insert

theorem holds_enter : (roll.enter member room number).Holds person count place ↔
    person = member ∧ count = number ∧ place = room ∨
      ¬(person = member ∧ count = number) ∧ roll.Holds person count place :=
  mem_update_insert

theorem lists_leave : (roll.leave member room number).Lists place count person ↔
    ¬(place = room ∧ count = number) ∧ roll.Lists place count person :=
  mem_update_erase

theorem holds_leave : (roll.leave member room number).Holds person count place ↔
    ¬(person = member ∧ count = number) ∧ roll.Holds person count place :=
  mem_update_erase

omit [DecidableEq κ] in
theorem Lists.unique (first : roll.Lists room number member)
    (second : roll.Lists room number person) :
    member = person :=
  congrArg Prod.snd (value_unique first second rfl)

omit [DecidableEq κ] in
theorem Holds.unique (first : roll.Holds member number room)
    (second : roll.Holds member number place) : room = place :=
  congrArg Prod.snd (value_unique first second rfl)

def Recorded (member : Nat) (roll : Roll κ) : Prop :=
  ∀ room number, roll.Lists room number member → roll.Holds member number room

def Honoured (member : Nat) (roll : Roll κ) : Prop :=
  ∀ number room, roll.Holds member number room → roll.Lists room number member

def Free (roll : Roll κ) (member : Nat) (room : κ) (number : Nat) : Prop :=
  ∀ person, roll.Lists room number person → person = member

theorem Recorded.enter (recorded : roll.Recorded person)
    (fresh : person = member → ∀ place, ¬roll.Holds member number place) :
    (roll.enter member room number).Recorded person := by
  intro place count listed
  rw [holds_enter]
  obtain ⟨isRoom, isNumber, isMember⟩ | ⟨_, before⟩ := lists_enter.mp listed
  · exact .inl ⟨isMember, isNumber, isRoom⟩
  right
  refine ⟨?_, recorded place count before⟩
  rintro ⟨isMember, rfl⟩
  subst isMember
  exact fresh rfl place (recorded place count before)

theorem Recorded.leave (recorded : roll.Recorded person) (held : roll.Holds member number room) :
    (roll.leave member room number).Recorded person := by
  intro place count listed
  rw [lists_leave] at listed
  rw [holds_leave]
  refine ⟨?_, recorded place count listed.2⟩
  rintro ⟨rfl, rfl⟩
  exact listed.1 ⟨(recorded place count listed.2).unique held, rfl⟩

omit [DecidableEq κ] in
theorem Recorded.nowhere (recorded : roll.Recorded member)
    (empty : (roll.held member).bindings = []) :
    ∀ room number, ¬roll.Lists room number member := by
  intro room number listed
  have held := recorded room number listed
  unfold Holds at held
  rw [empty] at held
  exact not_mem_nil held

theorem Honoured.enter (honoured : roll.Honoured person) (free : roll.Free member room number) :
    (roll.enter member room number).Honoured person := by
  intro count place held
  rw [lists_enter]
  obtain ⟨isMember, isNumber, isRoom⟩ | ⟨another, before⟩ := holds_enter.mp held
  · exact .inl ⟨isRoom, isNumber, isMember⟩
  · right
    refine ⟨?_, honoured count place before⟩
    rintro ⟨rfl, rfl⟩
    exact another ⟨free person (honoured count place before), rfl⟩

theorem Honoured.leave (honoured : roll.Honoured person) (listed : roll.Lists room number member) :
    (roll.leave member room number).Honoured person := by
  intro count place held
  rw [holds_leave] at held
  rw [lists_leave]
  refine ⟨?_, honoured count place held.2⟩
  rintro ⟨rfl, rfl⟩
  exact held.1 ⟨(honoured count place held.2).unique listed, rfl⟩

theorem Lists.enter {place : κ} {count : Nat} (listed : roll.Lists place count person)
    (another : person ≠ member) (free : roll.Free member room number) :
    (roll.enter member room number).Lists place count person := by
  rw [lists_enter]
  right
  refine ⟨?_, listed⟩
  rintro ⟨rfl, rfl⟩
  exact another (free person listed)

theorem Lists.leave {place : κ} {count : Nat} (listed : roll.Lists place count person)
    (another : person ≠ member) (own : roll.Lists room number member) :
    (roll.leave member room number).Lists place count person := by
  rw [lists_leave]
  refine ⟨?_, listed⟩
  rintro ⟨rfl, rfl⟩
  exact another (listed.unique own)

variable {names : Nat → Nat → Nat} {left right : Roll κ}

/-- The same rolls but for the numbers, which each member has chosen differently. -/
structure Renamed (names : Nat → Nat → Nat) (left right : Roll κ) : Prop where
  lists : ∀ room count member, right.Lists room count member ↔
    ∃ number, names member number = count ∧ left.Lists room number member
  holds : ∀ member count room, right.Holds member count room ↔
    ∃ number, names member number = count ∧ left.Holds member number room

omit [DecidableEq κ] in
theorem renamed_nobody {roll : Roll κ}
    (unlisted : ∀ room number member, ¬roll.Lists room number member)
    (unheld : ∀ member number room, ¬roll.Holds member number room) : Renamed names roll roll where
  lists _ _ _ := by simp [unlisted]
  holds _ _ _ := by simp [unheld]

omit [DecidableEq κ] in
theorem Renamed.lists_iff (renamed : Renamed names left right)
    (distinct : (names member).Injective) :
    right.Lists room (names member number) member ↔ left.Lists room number member := by
  rw [renamed.lists]
  constructor
  · rintro ⟨other, same, listed⟩
    rw [← distinct same]
    exact listed
  · intro listed
    exact ⟨number, rfl, listed⟩

omit [DecidableEq κ] in
theorem Renamed.holds_iff (renamed : Renamed names left right)
    (distinct : (names member).Injective) :
    right.Holds member (names member number) room ↔ left.Holds member number room := by
  rw [renamed.holds]
  constructor
  · rintro ⟨other, same, held⟩
    rw [← distinct same]
    exact held
  · intro held
    exact ⟨number, rfl, held⟩

omit [DecidableEq κ] in
theorem Renamed.mem_held_iff (renamed : Renamed names left right)
    (distinct : (names member).Injective) :
    names member number ∈ right.held member ↔ number ∈ left.held member := by
  rw [mem_iff, mem_iff]
  exact exists_congr fun room => renamed.holds_iff distinct

omit [DecidableEq κ] in
theorem Renamed.find_held (renamed : Renamed names left right)
    (distinct : (names member).Injective) :
    (right.held member).find (names member number) = (left.held member).find number := by
  apply Option.ext
  intro room
  rw [find_eq_some, find_eq_some]
  exact renamed.holds_iff distinct

omit [DecidableEq κ] in
theorem Renamed.mem_listed_iff (renamed : Renamed names left right)
    (distinct : (names member).Injective) (leftFree : left.Free member room number)
    (rightFree : right.Free member room (names member number)) :
    names member number ∈ right.listed room ↔ number ∈ left.listed room := by
  rw [mem_iff, mem_iff]
  constructor
  · rintro ⟨person, listed⟩
    have isMember := rightFree person listed
    subst isMember
    exact ⟨person, (renamed.lists_iff distinct).mp listed⟩
  · rintro ⟨person, listed⟩
    have isMember := leftFree person listed
    subst isMember
    exact ⟨person, (renamed.lists_iff distinct).mpr listed⟩

omit [DecidableEq κ] in
theorem Renamed.nobody_iff (renamed : Renamed names left right) :
    (right.listed room).bindings = [] ↔ (left.listed room).bindings = [] := by
  rw [eq_nil_iff_forall_not_mem, eq_nil_iff_forall_not_mem]
  constructor
  · rintro nobody ⟨number, member⟩ listed
    exact nobody (names member number, member)
      ((renamed.lists room _ member).mpr ⟨number, rfl, listed⟩)
  · rintro nobody ⟨count, member⟩ listed
    obtain ⟨number, _, found⟩ := (renamed.lists room count member).mp listed
    exact nobody (number, member) found

omit [DecidableEq κ] in
theorem Renamed.nothing_iff (renamed : Renamed names left right) :
    (right.held member).bindings = [] ↔ (left.held member).bindings = [] := by
  rw [eq_nil_iff_forall_not_mem, eq_nil_iff_forall_not_mem]
  constructor
  · rintro nothing ⟨number, room⟩ held
    exact nothing (names member number, room)
      ((renamed.holds member _ room).mpr ⟨number, rfl, held⟩)
  · rintro nothing ⟨count, room⟩ held
    obtain ⟨number, _, found⟩ := (renamed.holds member count room).mp held
    exact nothing (number, room) found

variable (renamed : Renamed names left right) (distinct : (names member).Injective)
include renamed distinct

theorem Renamed.enter (leftFree : left.Free member room number)
    (rightFree : right.Free member room (names member number)) :
    Renamed names (left.enter member room number)
      (right.enter member room (names member number)) where
  lists place count person := by
    rw [lists_enter, renamed.lists]
    constructor
    · rintro (⟨rfl, rfl, rfl⟩ | ⟨elsewhere, other, rfl, listed⟩)
      · exact ⟨number, rfl, lists_enter.mpr (.inl ⟨rfl, rfl, rfl⟩)⟩
      · refine ⟨other, rfl, lists_enter.mpr (.inr ⟨?_, listed⟩)⟩
        rintro ⟨rfl, rfl⟩
        rw [leftFree person listed] at elsewhere
        exact elsewhere ⟨rfl, rfl⟩
    rintro ⟨other, rfl, listed⟩
    obtain ⟨rfl, rfl, rfl⟩ | ⟨elsewhere, before⟩ := lists_enter.mp listed
    · exact .inl ⟨rfl, rfl, rfl⟩
    refine .inr ⟨?_, other, rfl, before⟩
    rintro ⟨rfl, same⟩
    have isListed := (renamed.lists place (names person other) person).mpr ⟨other, rfl, before⟩
    rw [same] at isListed
    have isMember := rightFree person isListed
    subst isMember
    exact elsewhere ⟨rfl, distinct same⟩
  holds person count place := by
    rw [holds_enter, renamed.holds]
    constructor
    · rintro (⟨rfl, rfl, rfl⟩ | ⟨another, other, rfl, held⟩)
      · exact ⟨number, rfl, holds_enter.mpr (.inl ⟨rfl, rfl, rfl⟩)⟩
      · refine ⟨other, rfl, holds_enter.mpr (.inr ⟨?_, held⟩)⟩
        rintro ⟨rfl, rfl⟩
        exact another ⟨rfl, rfl⟩
    rintro ⟨other, rfl, held⟩
    obtain ⟨rfl, rfl, rfl⟩ | ⟨another, before⟩ := holds_enter.mp held
    · exact .inl ⟨rfl, rfl, rfl⟩
    · refine .inr ⟨?_, other, rfl, before⟩
      rintro ⟨rfl, same⟩
      exact another ⟨rfl, distinct same⟩

theorem Renamed.leave (listed : left.Lists room number member) :
    Renamed names (left.leave member room number)
      (right.leave member room (names member number)) where
  lists place count person := by
    have own := (renamed.lists_iff distinct).mpr listed
    rw [lists_leave, renamed.lists]
    constructor
    · rintro ⟨elsewhere, other, rfl, found⟩
      refine ⟨other, rfl, lists_leave.mpr ⟨?_, found⟩⟩
      rintro ⟨rfl, rfl⟩
      rw [found.unique listed] at elsewhere
      exact elsewhere ⟨rfl, rfl⟩
    rintro ⟨other, rfl, found⟩
    rw [lists_leave] at found
    refine ⟨?_, other, rfl, found.2⟩
    rintro ⟨rfl, same⟩
    have isListed := (renamed.lists place (names person other) person).mpr ⟨other, rfl, found.2⟩
    rw [same] at isListed
    have isMember := isListed.unique own
    subst isMember
    exact found.1 ⟨rfl, distinct same⟩
  holds person count place := by
    rw [holds_leave, renamed.holds]
    constructor
    · rintro ⟨another, other, rfl, held⟩
      refine ⟨other, rfl, holds_leave.mpr ⟨?_, held⟩⟩
      rintro ⟨rfl, rfl⟩
      exact another ⟨rfl, rfl⟩
    rintro ⟨other, rfl, held⟩
    rw [holds_leave] at held
    refine ⟨?_, other, rfl, held.2⟩
    rintro ⟨rfl, same⟩
    exact held.1 ⟨rfl, distinct same⟩

end Roll

end PulsarLite.Library
