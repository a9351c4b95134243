import Mathlib.Data.List.Basic

/-!
# Rules for fallible computations

Inversion of a sequence of two steps that may fail, and the invariant rule for a
loop whose body may fail.
-/

namespace PulsarLite.Library

variable {ε α β σ : Type} {first : Except ε α} {next : α → Except ε β}

theorem bind_eq_ok {result : β} :
    (first >>= next) = .ok result ↔ ∃ value, first = .ok value ∧ next value = .ok result := by
  cases first with
  | error | ok => simp [bind, Except.bind]

theorem bind_eq_error {failure : ε} :
    (first >>= next) = .error failure ↔
      first = .error failure ∨ ∃ value, first = .ok value ∧ next value = .error failure := by
  cases first with
  | error | ok => simp [bind, Except.bind]

variable {body : σ → α → Except ε σ}

theorem foldlM_invariant {invariant : List α → σ → Prop}
    (step : ∀ done input state next, invariant done state → body state input = .ok next →
      invariant (done ++ [input]) next)
    (inputs done : List α) (state final : σ) (holds : invariant done state)
    (finished : inputs.foldlM body state = .ok final) : invariant (done ++ inputs) final := by
  induction inputs generalizing done state with
  | nil =>
    cases Except.ok.inj finished
    simpa using holds
  | cons input inputs ih =>
    obtain ⟨next, taken, rest⟩ := bind_eq_ok.mp finished
    have whole := ih (done ++ [input]) next (step done input state next holds taken) rest
    rwa [List.append_assoc, List.singleton_append] at whole

theorem foldlM_failure {invariant : σ → Prop}
    (step : ∀ input state next, invariant state → body state input = .ok next → invariant next)
    (inputs : List α) (state : σ) (failure : ε) (holds : invariant state)
    (failed : inputs.foldlM body state = .error failure) :
    ∃ input last, invariant last ∧ body last input = .error failure := by
  induction inputs generalizing state with
  | nil => cases failed
  | cons input inputs ih =>
    rcases bind_eq_error.mp failed with here | ⟨next, taken, rest⟩
    · exact ⟨input, state, holds, here⟩
    · exact ih next (step input state next holds taken) rest

theorem foldlM_ok_each {inputs : List α} {state final : σ}
    (finished : inputs.foldlM body state = .ok final) {input : α} (member : input ∈ inputs) :
    ∃ before after, body before input = .ok after := by
  induction inputs generalizing state with
  | nil => cases member
  | cons first inputs ih =>
    obtain ⟨next, taken, rest⟩ := bind_eq_ok.mp finished
    rcases List.mem_cons.mp member with rfl | later
    · exact ⟨state, next, taken⟩
    · exact ih rest later

end PulsarLite.Library
