import Mathlib.Data.List.Basic

/-!
# The order of first occurrences

A log is written at its end. If one key precedes another, the other one may occur
in the log for the first time only after the first did, unless that one was
excused before: by the length of the log that its excuse came at.
-/

namespace PulsarLite.Library

variable {κ : Type}

def FirstsFollow (precedes : κ → κ → Prop) (excused : Nat → κ → Prop) (log : List κ) : Prop :=
  ∀ before key after, log = before ++ key :: after → key ∉ before →
    ∀ other, precedes other key → other ∈ before ∨ excused before.length other

namespace FirstsFollow

variable {precedes narrower : κ → κ → Prop} {excused : Nat → κ → Prop} {log : List κ}
  {key other : κ}

theorem nil : FirstsFollow precedes excused [] := by
  intro before key after split
  simp at split

variable (follows : FirstsFollow precedes excused log)
include follows

theorem append
    (new : key ∉ log → ∀ other, precedes other key → other ∈ log ∨ excused log.length other) :
    FirstsFollow precedes excused (log ++ [key]) := by
  intro before next after split first
  rcases List.eq_nil_or_concat after with rfl | ⟨rest, last, rfl⟩
  · obtain ⟨rfl, isKey⟩ := List.append_inj' split rfl
    cases isKey
    exact new first
  have inner : log ++ [key] = (before ++ next :: rest) ++ [last] := by
    rw [split]
    simp
  obtain ⟨isLog, _⟩ := List.append_inj' inner rfl
  exact follows before next rest isLog first

theorem mem (later : ∀ early late other, early ≤ late → excused early other → excused late other)
    (member : key ∈ log) (isBefore : precedes other key) :
    other ∈ log ∨ excused log.length other := by
  obtain ⟨before, after, split, first⟩ := List.eq_append_cons_of_mem member
  rcases follows before key after split first other isBefore with inBefore | isExcused
  · exact Or.inl (split ▸ List.mem_append_left _ inBefore)
  · refine Or.inr (later _ _ _ ?_ isExcused)
    rw [split, List.length_append]
    exact Nat.le_add_right _ _

theorem narrow (less : ∀ key ∈ log, ∀ other, narrower other key → precedes other key) :
    FirstsFollow narrower excused log := by
  intro before key after split first other isBefore
  apply follows before key after split first
  exact less key (split ▸ by simp) other isBefore

end FirstsFollow

end PulsarLite.Library
