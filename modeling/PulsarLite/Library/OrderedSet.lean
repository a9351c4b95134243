import Mathlib.Data.List.Pairwise
import Mathlib.Data.List.Sort
import Mathlib.Order.Lattice

/-!
# Ordered sets as strictly sorted lists

The value of a search tree over a linear order: the list of its elements in
ascending order. The two searches are the ones an ordered tree offers from a
probe that need not be a member, the last element at or below it and the first
element at or above it.
-/

namespace PulsarLite.Library

open List

structure OrderedSet (α : Type*) [LinearOrder α] where
  elements : List α
  sorted : elements.Pairwise (· < ·)
deriving DecidableEq

namespace OrderedSet

variable {α : Type*} [LinearOrder α]

instance : Membership α (OrderedSet α) where
  mem set value := value ∈ set.elements

theorem lawful_equality (α : Type*) [LinearOrder α] : LawfulBEq α := inferInstance

instance (value : α) (set : OrderedSet α) : Decidable (value ∈ set) :=
  @instDecidableMemOfLawfulBEq α _ (lawful_equality α) value set.elements

theorem mem_def (value : α) (set : OrderedSet α) : value ∈ set ↔ value ∈ set.elements := Iff.rfl

theorem ext_mem {left right : OrderedSet α}
    (same : ∀ value, value ∈ left ↔ value ∈ right) : left = right := by
  have equal : left.elements = right.elements := left.sorted.eq_of_mem_iff right.sorted same
  cases left
  cases right
  simpa using equal

def empty : OrderedSet α where
  elements := []
  sorted := List.Pairwise.nil

@[simp] theorem not_mem_empty (value : α) : value ∉ (empty : OrderedSet α) := not_mem_nil

def insertList (value : α) : List α → List α
  | [] => [value]
  | head :: tail =>
    if value < head then value :: head :: tail
    else if value = head then head :: tail
    else head :: insertList value tail

theorem mem_insert_list (value other : α) (elements : List α) :
    other ∈ insertList value elements ↔ other = value ∨ other ∈ elements := by
  induction elements with
  | nil => simp [insertList]
  | cons head tail ih =>
    simp only [insertList]
    split_ifs with before same
    · simp
    · subst same
      simp
    · simp only [mem_cons, ih]
      tauto

theorem insert_list_sorted (value : α) (elements : List α) (sorted : elements.Pairwise (· < ·)) :
    (insertList value elements).Pairwise (· < ·) := by
  induction elements with
  | nil => simp [insertList]
  | cons head tail ih =>
    obtain ⟨above, tailSorted⟩ := pairwise_cons.mp sorted
    simp only [insertList]
    split_ifs with before same
    · refine pairwise_cons.mpr ⟨?_, sorted⟩
      intro other member
      obtain rfl | member := mem_cons.mp member
      · exact before
      · exact before.trans (above other member)
    · exact sorted
    refine pairwise_cons.mpr ⟨?_, ih tailSorted⟩
    intro other member
    obtain rfl | member := (mem_insert_list value other tail).mp member
    · exact lt_of_le_of_ne (not_lt.mp before) (.symm same)
    · exact above other member

def insert (value : α) (set : OrderedSet α) : OrderedSet α where
  elements := insertList value set.elements
  sorted := insert_list_sorted value set.elements set.sorted

@[simp] theorem mem_insert (value other : α) (set) :
    other ∈ insert value set ↔ other = value ∨ other ∈ set :=
  mem_insert_list value other set.elements

def erase (value : α) (set : OrderedSet α) : OrderedSet α where
  elements := set.elements.erase value
  sorted := set.sorted.sublist (erase_sublist ..)

@[simp] theorem mem_erase (value other : α) (set) :
    other ∈ erase value set ↔ other ≠ value ∧ other ∈ set := by
  have distinct : set.elements.Nodup := set.sorted.imp fun before => before.ne
  exact distinct.mem_erase_iff

theorem erase_length {value : α} {set} (member : value ∈ set) :
    (erase value set).elements.length + 1 = set.elements.length := by
  have positive : 0 < set.elements.length := length_pos_of_mem member
  have shorter := length_erase_of_mem member
  change (set.elements.erase value).length + 1 = set.elements.length
  omega

variable (set : OrderedSet α) (probe : α)

def lastAtMost : Option α :=
  set.elements.reverse.find? (· ≤ probe)

def firstAtLeast : Option α :=
  set.elements.find? (probe ≤ ·)

omit [LinearOrder α] in
theorem find_some_first {relation : α → α → Prop} {elements : List α}
    (sorted : elements.Pairwise relation) {test : α → Bool} {value : α}
    (found : elements.find? test = some value) :
    ∀ other ∈ elements, test other = true → other = value ∨ relation value other := by
  induction elements with
  | nil => simp at found
  | cons head tail ih =>
    obtain ⟨above, tailSorted⟩ := pairwise_cons.mp sorted
    intro other member hit
    rw [List.find?_cons] at found
    cases headHit : test head with
    | true =>
      simp only [headHit, Option.some.injEq] at found
      subst found
      obtain rfl | member := mem_cons.mp member
      · exact Or.inl rfl
      · exact Or.inr (above other member)
    | false =>
      simp only [headHit] at found
      obtain rfl | member := mem_cons.mp member
      · rw [hit] at headHit
        exact absurd headHit (by decide)
      · exact ih tailSorted found other member hit

variable {set : OrderedSet α} {probe value : α}

theorem last_at_most_some (found : set.lastAtMost probe = some value) :
    value ∈ set ∧ value ≤ probe ∧ ∀ other ∈ set, other ≤ probe → other ≤ value := by
  have member := mem_of_find?_eq_some found
  have bounded := List.find?_some found
  refine ⟨mem_reverse.mp member, by simpa using bounded, ?_⟩
  intro other otherMember otherBounded
  have descending : set.elements.reverse.Pairwise (fun left right => right < left) :=
    pairwise_reverse.mpr set.sorted
  rcases find_some_first descending found other (mem_reverse.mpr otherMember)
    (by simpa using otherBounded) with rfl | below
  · exact le_refl _
  · exact below.le

theorem last_at_most_none {probe : α} (missing : set.lastAtMost probe = none) :
    ∀ other ∈ set, probe < other := by
  intro other member
  have miss := List.find?_eq_none.mp missing other (mem_reverse.mpr member)
  simpa using miss

theorem first_at_least_some (found : set.firstAtLeast probe = some value) :
    value ∈ set ∧ probe ≤ value ∧ ∀ other ∈ set, probe ≤ other → value ≤ other := by
  have member := mem_of_find?_eq_some found
  have bounded := List.find?_some found
  refine ⟨member, by simpa using bounded, ?_⟩
  intro other otherMember otherBounded
  rcases find_some_first set.sorted found other otherMember
    (by simpa using otherBounded) with rfl | above
  · exact le_refl _
  · exact above.le

theorem first_at_least_none {probe : α} (missing : set.firstAtLeast probe = none) :
    ∀ other ∈ set, other < probe := by
  intro other member
  have miss := List.find?_eq_none.mp missing other member
  simpa using miss

end OrderedSet

end PulsarLite.Library
