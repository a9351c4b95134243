import Mathlib.Algebra.Order.Group.Nat
import PulsarLite.Library.Runs

/-!
# Endless runs

A behavior of a machine goes on for ever. Something happens eventually in it if a
rank falls with every helpful action, no other action raises it, and helpful
actions are taken again and again.
-/

namespace PulsarLite.Library

open List

variable {σ α : Type}

structure Behavior (step : σ → α → σ) (permitted : σ → α → Prop) (start : σ) where
  states : Nat → σ
  actions : Nat → α
  first : states 0 = start
  next : ∀ time, states (time + 1) = step (states time) (actions time)
  permits : ∀ time, permitted (states time) (actions time)

variable {step : σ → α → σ} {permitted : σ → α → Prop} {start : σ}

namespace Behavior

variable (behavior : Behavior step permitted start)

theorem run (time : Nat) : Run step permitted start (behavior.states time) := by
  induction time with
  | zero =>
    rw [behavior.first]
    exact .refl
  | succ time ih =>
    rw [behavior.next]
    exact ih.step _ _ (behavior.permits time)

/-- What one step may do while a goal is waited for: reach it, or keep waiting with
a rank that is no higher, and lower if the action was helpful. -/
def Approaches (waiting goal : σ → Prop) (helpful : α → Prop) (rank : σ → Nat) : Prop :=
  ∀ time, waiting (behavior.states time) → goal (behavior.states (time + 1)) ∨
    waiting (behavior.states (time + 1)) ∧
      rank (behavior.states (time + 1)) ≤ rank (behavior.states time) ∧
      (helpful (behavior.actions time) →
        rank (behavior.states (time + 1)) < rank (behavior.states time))

variable {behavior : Behavior step permitted start} {waiting goal : σ → Prop}
  {helpful : α → Prop} {rank : σ → Nat}

section

variable (approaches : behavior.Approaches waiting goal helpful rank)
include approaches

theorem Approaches.lasts {time later : Nat}
    (after : time ≤ later) (here : waiting (behavior.states time)) :
    (∃ reached ≥ time, goal (behavior.states reached)) ∨
      waiting (behavior.states later) ∧
        rank (behavior.states later) ≤ rank (behavior.states time) := by
  induction later, after using Nat.le_induction with
  | base => exact Or.inr ⟨here, le_rfl⟩
  | succ later after ih =>
    rcases ih with reached | ⟨waits, bound⟩
    · exact Or.inl reached
    · rcases approaches later waits with reached | ⟨waits, smaller, _⟩
      · exact Or.inl ⟨later + 1, Nat.le_succ_of_le after, reached⟩
      · exact Or.inr ⟨waits, smaller.trans bound⟩

theorem Approaches.leads_to
    (fair : ∀ time, ∃ later ≥ time, waiting (behavior.states later) →
      helpful (behavior.actions later))
    {time : Nat} (here : waiting (behavior.states time)) :
    ∃ later ≥ time, goal (behavior.states later) := by
  induction bound : rank (behavior.states time) using Nat.strong_induction_on
    generalizing time with
  | _ bound ih =>
    subst bound
    obtain ⟨turn, after, helps⟩ := fair time
    rcases approaches.lasts after here with reached | ⟨waits, smaller⟩
    · exact reached
    · rcases approaches turn waits with reached | ⟨next, _, lower⟩
      · exact ⟨turn + 1, Nat.le_succ_of_le after, reached⟩
      · obtain ⟨later, beyond, reached⟩ := ih _ ((lower (helps waits)).trans_le smaller) next rfl
        exact ⟨later, (Nat.le_succ_of_le after).trans beyond, reached⟩

end

theorem permits_get {actions : List α} (permits : Run.Permits step permitted start actions)
    {time : Nat} (inside : time < actions.length) :
    permitted ((actions.take time).foldl step start) (actions.get ⟨time, inside⟩) := by
  induction actions generalizing start time with
  | nil => cases inside
  | cons action actions ih =>
    cases time with
    | zero => exact permits.1
    | succ time => exact ih permits.2 (Nat.lt_of_succ_lt_succ inside)

def ofList {actions : List α} (permits : Run.Permits step permitted start actions) (idle : α)
    (rests : ∀ state, step state idle = state) (idles : ∀ state, permitted state idle) :
    Behavior step permitted start where
  states time := (actions.take time).foldl step start
  actions time := actions.getD time idle
  first := by simp
  next time := by
    by_cases inside : time < actions.length
    · rw [take_add_one, foldl_append]
      simp [getD, inside]
    · have beyond : actions.length ≤ time := not_lt.mp inside
      rw [take_of_length_le beyond, take_of_length_le (Nat.le_succ_of_le beyond)]
      simp [getD, getElem?_eq_none beyond, rests]
  permits time := by
    by_cases inside : time < actions.length
    · have allowed := permits_get permits inside
      simpa [getD, inside] using allowed
    · rw [getD, getElem?_eq_none (not_lt.mp inside)]
      exact idles _

theorem of_list_end {actions : List α} (permits : Run.Permits step permitted start actions)
    (idle : α) (rests : ∀ state, step state idle = state) (idles : ∀ state, permitted state idle)
    {time : Nat} (after : actions.length ≤ time) :
    (ofList permits idle rests idles).states time = actions.foldl step start := by
  simp only [ofList, take_of_length_le after]

end Behavior

end PulsarLite.Library
