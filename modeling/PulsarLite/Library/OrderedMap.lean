import Mathlib.Algebra.Order.BigOperators.Group.List
import Mathlib.Algebra.Order.Group.Int
import Mathlib.Algebra.Ring.Int.Defs
import Mathlib.Data.List.Nodup
import Mathlib.Data.List.Pairwise
import Mathlib.Data.List.Perm.Basic
import Mathlib.Order.Defs.LinearOrder
import Mathlib.Order.Lattice

/-!
# Ordered maps as strictly sorted lists

The value of a search tree that maps keys to values: the list of its bindings,
strictly ascending by key. Walking the tree is walking the list.
-/

namespace PulsarLite.Library

open List

structure OrderedMap (κ υ : Type*) [LinearOrder κ] where
  bindings : List (κ × υ)
  sorted : bindings.Pairwise fun left right => left.1 < right.1
deriving DecidableEq

namespace OrderedMap

variable {κ υ : Type*} [LinearOrder κ]

def empty : OrderedMap κ υ where
  bindings := []
  sorted := List.Pairwise.nil

def keys (map : OrderedMap κ υ) : List κ := map.bindings.map Prod.fst

instance : Membership κ (OrderedMap κ υ) where
  mem map key := key ∈ map.keys

instance (key : κ) (map : OrderedMap κ υ) : Decidable (key ∈ map) :=
  inferInstanceAs (Decidable (key ∈ map.keys))

def find (map : OrderedMap κ υ) (key : κ) : Option υ :=
  (map.bindings.find? fun binding => decide (binding.1 = key)).map Prod.snd

section

variable (map : OrderedMap κ υ) (key : κ)

def erase : OrderedMap κ υ where
  bindings := map.bindings.filter fun binding => decide (binding.1 ≠ key)
  sorted := map.sorted.filter _

theorem insert_sorted (value : υ) :
    ((map.bindings.filter fun binding => decide (binding.1 < key)) ++ (key, value) ::
      (map.bindings.filter fun binding => decide (key < binding.1))).Pairwise
        fun left right => left.1 < right.1 := by
  rw [pairwise_append, pairwise_cons]
  refine ⟨map.sorted.filter _, ⟨?_, map.sorted.filter _⟩, ?_⟩
  · intro binding member
    simpa using (mem_filter.mp member).2
  intro left leftMember right rightMember
  have before : left.1 < key := by simpa using (mem_filter.mp leftMember).2
  rcases mem_cons.mp rightMember with rfl | rightMember
  · exact before
  · exact before.trans (by simpa using (mem_filter.mp rightMember).2)

/-- A binding for the key, in the place of the old one if there is one. -/
def insert (value : υ) : OrderedMap κ υ where
  bindings := (map.bindings.filter fun binding => decide (binding.1 < key)) ++ (key, value) ::
    (map.bindings.filter fun binding => decide (key < binding.1))
  sorted := map.insert_sorted key value

end

variable {map : OrderedMap κ υ} {key other : κ} {value : υ} {binding : κ × υ}

@[simp] theorem not_mem_bindings_empty : binding ∉ (empty : OrderedMap κ υ).bindings := not_mem_nil

@[simp] theorem mem_bindings_erase :
    binding ∈ (map.erase key).bindings ↔ binding.1 ≠ key ∧ binding ∈ map.bindings := by
  simp [erase, and_comm]

@[simp] theorem mem_bindings_insert : binding ∈ (map.insert key value).bindings ↔
      binding = (key, value) ∨ binding.1 ≠ key ∧ binding ∈ map.bindings := by
  simp only [insert, mem_append, mem_filter, mem_cons, decide_eq_true_eq, ne_iff_lt_or_gt]
  tauto

theorem mem_iff : key ∈ map ↔ ∃ value, (key, value) ∈ map.bindings := by
  change key ∈ map.bindings.map Prod.fst ↔ _
  simp

theorem mem_of_binding (member : binding ∈ map.bindings) : binding.1 ∈ map :=
  mem_iff.mpr ⟨binding.2, member⟩

@[simp] theorem not_mem_empty : key ∉ (empty : OrderedMap κ υ) := not_mem_nil

@[simp] theorem mem_erase : other ∈ map.erase key ↔ other ≠ key ∧ other ∈ map := by
  simp [mem_iff]

@[simp] theorem mem_insert : other ∈ map.insert key value ↔ other = key ∨ other ∈ map := by
  simp only [mem_iff, mem_bindings_insert, Prod.mk.injEq]
  by_cases same : other = key
  · simp [same]
  · simp [same]

theorem value_unique {left right : κ × υ} (leftMember : left ∈ map.bindings)
    (rightMember : right ∈ map.bindings) (same : left.1 = right.1) : left = right := by
  have distinct : (map.bindings.map Prod.fst).Nodup := by
    rw [nodup_iff_pairwise_ne, pairwise_map]
    exact map.sorted.imp fun before => before.ne
  exact inj_on_of_nodup_map distinct leftMember rightMember same

theorem find_eq_some : map.find key = some value ↔ (key, value) ∈ map.bindings := by
  constructor
  · intro found
    obtain ⟨binding, search, rfl⟩ := Option.map_eq_some_iff.mp found
    have same : binding.1 = key := by simpa using List.find?_some search
    rw [← same]
    exact mem_of_find?_eq_some search
  intro member
  cases search : map.bindings.find? fun binding => decide (binding.1 = key) with
  | none =>
    rw [List.find?_eq_none] at search
    exact absurd (decide_eq_true rfl) (search _ member)
  | some binding =>
    have same : binding.1 = key := by simpa using List.find?_some search
    rw [find, search, value_unique (mem_of_find?_eq_some search) member same]
    rfl

theorem find_eq_none : map.find key = none ↔ key ∉ map := by
  rw [Option.eq_none_iff_forall_ne_some, mem_iff, not_exists]
  exact forall_congr' fun value => not_congr find_eq_some

theorem find_insert :
    (map.insert key value).find other = if other = key then some value else map.find other := by
  ext found
  rw [find_eq_some, mem_bindings_insert]
  split_ifs with same
  · simp [same, eq_comm]
  · simp [same, find_eq_some]

theorem find_erase : (map.erase key).find other = if other = key then none else map.find other := by
  ext found
  rw [find_eq_some, mem_bindings_erase]
  split_ifs with same
  · simp [same]
  · simp [same, find_eq_some]

theorem mem_of_find (found : map.find key = some value) : key ∈ map :=
  mem_of_binding (find_eq_some.mp found)

theorem erase_of_not_mem (missing : key ∉ map) : (map.erase key).bindings = map.bindings := by
  apply filter_eq_self.mpr
  intro binding member
  rw [decide_eq_true_eq]
  intro same
  exact missing (same ▸ mem_of_binding member)

theorem erase_first {first : κ × υ} {rest : List (κ × υ)} (isFirst : map.bindings = first :: rest) :
    (map.erase first.1).bindings = rest := by
  have sorted := map.sorted
  rw [isFirst, pairwise_cons] at sorted
  change map.bindings.filter _ = rest
  rw [isFirst, filter_cons_of_neg (by simp)]
  exact filter_eq_self.mpr fun binding member => decide_eq_true (sorted.1 binding member).ne'

theorem bindings_nodup (map : OrderedMap κ υ) : map.bindings.Nodup :=
  map.sorted.imp fun before same => before.ne (congrArg Prod.fst same)

theorem eq_of_bindings (other : OrderedMap κ υ)
    (same : ∀ binding, binding ∈ map.bindings ↔ binding ∈ other.bindings) : map = other := by
  have permuted := (perm_ext_iff_of_nodup map.bindings_nodup other.bindings_nodup).mpr same
  have equal : map.bindings = other.bindings := permuted.eq_of_pairwise
    (fun _ _ _ _ before after => absurd before after.asymm) map.sorted other.sorted
  cases map
  cases other
  cases equal
  rfl

theorem erase_insert_iff (value : υ) : (map.insert key value).erase key = map ↔ key ∉ map := by
  constructor
  · intro same member
    rw [← same, mem_erase] at member
    exact member.1 rfl
  · refine fun missing => eq_of_bindings _ fun binding => ?_
    have other (member : binding ∈ map.bindings) : binding.1 ≠ key :=
      fun isKey => missing (isKey ▸ mem_of_binding member)
    rw [mem_bindings_erase, mem_bindings_insert]
    exact ⟨fun left => (left.2.resolve_left fun new => left.1 (congrArg Prod.fst new)).2,
      fun member => ⟨other member, .inr ⟨other member, member⟩⟩⟩

theorem perm_cons_erase {other : OrderedMap κ υ} (parts : ∀ binding, binding ∈ other.bindings ↔
      binding = (key, value) ∨ binding.1 ≠ key ∧ binding ∈ map.bindings) :
    other.bindings.Perm ((key, value) :: (map.erase key).bindings) := by
  rw [perm_ext_iff_of_nodup (bindings_nodup _) (nodup_cons.mpr ⟨by simp, bindings_nodup _⟩)]
  intro binding
  rw [parts, mem_cons, mem_bindings_erase]

theorem insert_perm :
    (map.insert key value).bindings.Perm ((key, value) :: (map.erase key).bindings) :=
  perm_cons_erase fun _ => mem_bindings_insert

theorem erase_perm (member : (key, value) ∈ map.bindings) :
    map.bindings.Perm ((key, value) :: (map.erase key).bindings) := by
  refine perm_cons_erase fun binding => ⟨fun inside => ?_, ?_⟩
  · by_cases same : binding.1 = key
    · exact .inl (value_unique inside member same)
    · exact .inr ⟨same, inside⟩
  · rintro (rfl | ⟨_, found⟩)
    · exact member
    · exact found

theorem keys_insert (member : key ∈ map) : (map.insert key value).keys = map.keys := by
  have ascending (other : OrderedMap κ υ) : other.keys.Pairwise (· < ·) :=
    pairwise_map.mpr other.sorted
  have same : (map.insert key value).keys.Perm map.keys := by
    rw [perm_ext_iff_of_nodup ((ascending _).imp ne_of_lt) ((ascending _).imp ne_of_lt)]
    intro other
    have inserted : other ∈ map.insert key value ↔ other = key ∨ other ∈ map := mem_insert
    constructor
    · intro found
      rcases inserted.mp found with rfl | old
      · exact member
      · exact old
    · exact fun old => inserted.mpr (Or.inr old)
  exact same.eq_of_pairwise (fun _ _ _ _ before after => absurd before after.asymm)
    (ascending _) (ascending _)

theorem bindings_insert (member : key ∈ map) :
    (map.insert key value).bindings = map.bindings.map fun binding =>
      if binding.1 = key then (key, value) else binding := by
  have sameKeys : ((map.bindings.map fun binding =>
      if binding.1 = key then (key, value) else binding).map Prod.fst) = map.keys := by
    rw [map_map]
    apply map_congr_left
    intro binding _
    by_cases same : binding.1 = key
    · simp [same]
    · simp [same]
  have sorted : (map.bindings.map fun binding =>
      if binding.1 = key then (key, value) else binding).Pairwise
        fun left right => left.1 < right.1 := by
    rw [← pairwise_map (f := Prod.fst), sameKeys]
    exact pairwise_map.mpr map.sorted
  refine congrArg bindings (eq_of_bindings ⟨_, sorted⟩ fun binding => ?_)
  rw [mem_bindings_insert, mem_map]
  constructor
  · rintro (rfl | ⟨different, old⟩)
    · obtain ⟨old, isOld⟩ := mem_iff.mp member
      exact ⟨_, isOld, if_pos rfl⟩
    · exact ⟨binding, old, if_neg different⟩
  rintro ⟨old, isOld, rfl⟩
  by_cases isKey : old.1 = key
  · exact Or.inl (if_pos isKey)
  · rw [if_neg isKey]
    exact Or.inr ⟨isKey, isOld⟩

theorem map_bindings_insert {β : Type*} {read : κ × υ → β} {old : υ}
    (member : (key, old) ∈ map.bindings) (same : read (key, value) = read (key, old)) :
    (map.insert key value).bindings.map read = map.bindings.map read := by
  rw [bindings_insert (mem_of_binding member), map_map]
  apply map_congr_left
  intro binding isBinding
  by_cases isKey : binding.1 = key
  · simp [value_unique isBinding member isKey, same]
  · simp [isKey]

def count (map : OrderedMap κ υ) (holds : υ → Bool) : Nat :=
  map.bindings.countP fun binding => holds binding.2

section

variable (holds : υ → Bool)
include holds

@[simp] theorem count_empty : (empty : OrderedMap κ υ).count holds = 0 := rfl

theorem count_insert : (map.insert key value).count holds =
      (map.erase key).count holds + if holds value then 1 else 0 := by
  rw [count, insert_perm.countP_eq, countP_cons, count]

theorem count_erase (member : (key, value) ∈ map.bindings) :
    map.count holds = (map.erase key).count holds + if holds value then 1 else 0 := by
  rw [count, (erase_perm member).countP_eq, countP_cons, count]

theorem count_erase_of_not_mem (missing : key ∉ map) :
    (map.erase key).count holds = map.count holds := by
  rw [count, erase_of_not_mem missing, count]

theorem count_pos (member : binding ∈ map.bindings) (meets : holds binding.2 = true) :
    0 < map.count holds :=
  countP_pos_iff.mpr ⟨binding, member, meets⟩

end

variable {weight : υ → Int}

def total (map : OrderedMap κ υ) (weight : υ → Int) : Int :=
  (map.bindings.map fun binding => weight binding.2).sum

section

variable (weight : υ → Int)

@[simp] theorem total_empty : (empty : OrderedMap κ υ).total weight = 0 := rfl

theorem total_insert :
    (map.insert key value).total weight = weight value + (map.erase key).total weight := by
  rw [total, (insert_perm.map _).sum_eq, map_cons, sum_cons, total]

theorem total_erase (member : (key, value) ∈ map.bindings) :
    map.total weight = weight value + (map.erase key).total weight := by
  rw [total, ((erase_perm member).map _).sum_eq, map_cons, sum_cons, total]

theorem total_insert_new (missing : key ∉ map) :
    (map.insert key value).total weight = weight value + map.total weight := by
  rw [total_insert, total, erase_of_not_mem missing, total]

end

theorem length_insert (member : key ∈ map) :
    (map.insert key value).bindings.length = map.bindings.length := by
  rw [bindings_insert member, length_map]

theorem length_insert_new (missing : key ∉ map) :
    (map.insert key value).bindings.length = map.bindings.length + 1 := by
  rw [insert_perm.length_eq, length_cons, erase_of_not_mem missing]

theorem length_erase (member : (key, value) ∈ map.bindings) :
    map.bindings.length = (map.erase key).bindings.length + 1 := by
  rw [(erase_perm member).length_eq, length_cons]

theorem total_ge {bound : Int} (each : ∀ binding ∈ map.bindings, bound ≤ weight binding.2) :
    map.bindings.length * bound ≤ map.total weight := by
  have all : ∀ value ∈ map.bindings.map fun binding => weight binding.2, bound ≤ value := by
    intro value member
    obtain ⟨binding, isBinding, rfl⟩ := mem_map.mp member
    exact each binding isBinding
  simpa [total] using card_nsmul_le_sum _ bound all

end OrderedMap

end PulsarLite.Library
