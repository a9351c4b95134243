import Mathlib.Data.List.Basic

/-!
# Runs of a machine

A machine takes actions one after another. A run is `permitted` if every action
is, in the state it is taken in.
-/

namespace PulsarLite.Library

variable {σ α : Type}

inductive Run (step : σ → α → σ) (permitted : σ → α → Prop) (start : σ) : σ → Prop
  | refl : Run step permitted start start
  | step (action : α) (state : σ) (before : Run step permitted start state)
      (permits : permitted state action) : Run step permitted start (step state action)

variable {step : σ → α → σ} {permitted : σ → α → Prop} {start state : σ}

namespace Run

variable {actions before after : List α}

theorem invariant {holds : σ → Prop} (run : Run step permitted start state) (first : holds start)
    (kept : ∀ state action, holds state → permitted state action → holds (step state action)) :
    holds state := by
  induction run with
  | refl => exact first
  | step action state before permits ih => exact kept state action ih permits

theorem mono {wider : σ → α → Prop} (run : Run step permitted start state)
    (weaker : ∀ state action, permitted state action → wider state action) :
    Run step wider start state := by
  induction run with
  | refl => exact refl
  | step action state before permits ih => exact ih.step action state (weaker state action permits)

theorem trans {middle : σ} (first : Run step permitted start middle)
    (later : Run step permitted middle state) : Run step permitted start state := by
  induction later with
  | refl => exact first
  | step action state before permits ih => exact ih.step action state permits

/-- Every action of the list is permitted when its turn comes. -/
def Permits (step : σ → α → σ) (permitted : σ → α → Prop) : σ → List α → Prop
  | _, [] => True
  | state, action :: actions =>
    permitted state action ∧ Permits step permitted (step state action) actions

instance [∀ state action, Decidable (permitted state action)] (start : σ) (actions : List α) :
    Decidable (Permits step permitted start actions) :=
  match actions with
  | [] => .isTrue trivial
  | action :: actions =>
    let := instDecidablePermits (step start action) actions
    inferInstanceAs (Decidable (permitted start action ∧ _))

theorem of_permits (permits : Permits step permitted start actions) :
    Run step permitted start (actions.foldl step start) := by
  induction actions generalizing start with
  | nil => exact refl
  | cons action actions ih =>
    exact (refl.step action start permits.1).trans (ih permits.2)

theorem permits_iff : Permits step permitted start actions ↔
    ∀ before action after, actions = before ++ action :: after →
      permitted (before.foldl step start) action := by
  induction actions generalizing start with
  | nil => simp [Permits]
  | cons first actions ih =>
    rw [Permits, ih]
    constructor
    · rintro ⟨now, later⟩ before action after split
      cases before with
      | nil =>
        obtain ⟨rfl, _⟩ := List.cons.inj split
        exact now
      | cons head before =>
        obtain ⟨rfl, rest⟩ := List.cons.inj split
        exact later before action after rest
    · intro each
      refine ⟨each [] first actions rfl, ?_⟩
      intro before action after split
      exact each (first :: before) action after (by rw [split, List.cons_append])

theorem permits_of_append (permits : Permits step permitted start (before ++ after)) :
    Permits step permitted start before := by
  rw [permits_iff] at permits ⊢
  intro earlier action later split
  exact permits earlier action (later ++ after) (by rw [split, List.append_assoc]; rfl)

variable (step : σ → α → σ) (start : σ)

theorem permits_any (actions : List α) : Permits step (fun _ _ => True) start actions :=
  permits_iff.mpr fun _ _ _ _ => trivial

theorem of_list (actions : List α) : Run step (fun _ _ => True) start (actions.foldl step start) :=
  of_permits (permits_any step start actions)

end Run

end PulsarLite.Library
