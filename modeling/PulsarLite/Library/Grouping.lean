import Mathlib.Data.List.Induction
import Mathlib.Data.List.Nodup
import Mathlib.Logic.Function.Basic

/-!
# Grouping by a key

Values are put into groups one after the other. The groups are kept in the order
in which their keys first occur, and each group keeps the order of its values.
-/

namespace PulsarLite.Library

open List

variable {α κ : Type} [DecidableEq κ]

structure Groups (α κ : Type) where
  order : List κ
  members : κ → List α

namespace Groups

def empty : Groups α κ where
  order := []
  members := fun _ => []

section

variable (key : α → κ)

def add (groups : Groups α κ) (value : α) : Groups α κ where
  order := if (groups.members (key value)).isEmpty then groups.order ++ [key value]
    else groups.order
  members := Function.update groups.members (key value) (groups.members (key value) ++ [value])

def ofList (values : List α) : Groups α κ := values.foldl (add key) empty

def withKey (wanted : κ) (values : List α) : List α :=
  values.filter fun value => decide (key value = wanted)

end

variable (key : α → κ)
include key

theorem with_key_concat (wanted : κ) (values : List α) (value : α) : withKey key wanted
    (values ++ [value]) =
      withKey key wanted values ++ if key value = wanted then [value] else [] := by
  by_cases here : key value = wanted
  · simp [withKey, here]
  · simp [withKey, here]

section

variable (values : List α)
include values

theorem of_list_concat (value : α) :
    ofList key (values ++ [value]) = add key (ofList key values) value := by
  simp [ofList]

variable (wanted : κ)

theorem members_of_list : (ofList key values).members wanted = withKey key wanted values := by
  induction values using reverseRecOn with
  | nil => rfl
  | append_singleton values value ih =>
    rw [of_list_concat, with_key_concat, ← ih]
    by_cases here : key value = wanted
    · subst here
      simp [add]
    · simp [add, here, Function.update_of_ne (Ne.symm here)]

theorem mem_order_of_list :
    wanted ∈ (ofList key values).order ↔ ∃ value ∈ values, key value = wanted := by
  induction values using reverseRecOn with
  | nil => simp [ofList, empty]
  | append_singleton values value ih =>
    have present : (ofList key values).members (key value) = [] ↔
        ¬ ∃ other ∈ values, key other = key value := by
      simp [members_of_list, withKey]
    rw [of_list_concat, add]
    by_cases first : (ofList key values).members (key value) = []
    · simp [first, ih, or_and_right, exists_or, eq_comm]
    have seen := not_not.mp (mt present.mpr first)
    simp only [List.isEmpty_iff, first, if_false, ih, List.mem_append, List.mem_singleton]
    constructor
    · intro found
      obtain ⟨other, member, same⟩ := found
      exact ⟨other, Or.inl member, same⟩
    · intro found
      obtain ⟨other, member | rfl, same⟩ := found
      · exact ⟨other, member, same⟩
      · exact same ▸ seen

theorem order_nodup : (ofList key values).order.Nodup := by
  induction values using reverseRecOn with
  | nil => exact nodup_nil
  | append_singleton values value ih =>
    rw [of_list_concat, add]
    by_cases first : (ofList key values).members (key value) = []
    · have fresh : key value ∉ (ofList key values).order := by
        rw [mem_order_of_list]
        intro found
        obtain ⟨other, member, same⟩ := found
        rw [members_of_list, withKey, filter_eq_nil_iff] at first
        exact first other member (decide_eq_true same)
      simp only [first, isEmpty_nil, if_true]
      rw [nodup_append]
      refine ⟨ih, nodup_singleton _, ?_⟩
      intro left member right isRight same
      rw [mem_singleton.mp isRight] at same
      exact fresh (same ▸ member)
    · simp only [List.isEmpty_iff, first, if_false]
      exact ih

theorem with_key_flat_map (order : List κ) (distinct : order.Nodup) :
    withKey key wanted (order.flatMap fun other => withKey key other values) =
      if wanted ∈ order then withKey key wanted values else [] := by
  induction order with
  | nil => rfl
  | cons first rest ih =>
    rw [nodup_cons] at distinct
    rw [flatMap_cons, withKey, filter_append]
    have head : (withKey key first values).filter (fun value => decide (key value = wanted)) =
        if first = wanted then withKey key wanted values else [] := by
      split_ifs with same
      · subst same
        simp [withKey]
      · rw [filter_eq_nil_iff]
        intro value member
        have here : key value = first := of_decide_eq_true (mem_filter.mp member).2
        simp [here, same]
    have tail := ih distinct.2
    rw [withKey] at tail
    rw [head, tail]
    by_cases same : first = wanted
    · subst same
      simp [distinct.1]
    · have other : ¬ wanted = first := fun equal => same equal.symm
      simp [same, other]

theorem with_key_groups :
    withKey key wanted ((ofList key values).order.flatMap (ofList key values).members) =
      withKey key wanted values := by
  have groups : (ofList key values).members = fun other => withKey key other values :=
    funext (members_of_list key values)
  rw [groups, with_key_flat_map key values wanted _ (order_nodup key values)]
  split_ifs with present
  · rfl
  · symm
    rw [withKey, filter_eq_nil_iff]
    intro value member same
    exact present
      ((mem_order_of_list key values wanted).mpr ⟨value, member, of_decide_eq_true same⟩)

end

theorem perm_of_with_key [DecidableEq α] {left right : List α}
    (same : ∀ wanted, withKey key wanted left = withKey key wanted right) : left.Perm right := by
  rw [perm_iff_count]
  intro value
  have counted (values : List α) : (withKey key (key value) values).count value =
      values.count value := by
    exact count_filter (decide_eq_true rfl)
  rw [← counted left, same, counted right]

end Groups

end PulsarLite.Library
