import Mathlib.Init

/-!
# Loops that may stop early

The body of a loop goes on to the next round, stops the loop, or fails. A loop is
run for a number of rounds.
-/

namespace PulsarLite.Library

inductive Flow (ε σ : Type)
  | next (state : σ)
  | stop (state : σ)
  | fail (failure : ε) (state : σ)

namespace Flow

variable {ε σ : Type}

def state : Flow ε σ → σ
  | next state => state
  | stop state => state
  | fail _ state => state

def failure : Flow ε σ → Option ε
  | fail failure _ => some failure
  | next _ | stop _ => none

/-- The rest of a body, unless its first part has left the loop. -/
def andThen (flow : Flow ε σ) (rest : σ → Flow ε σ) : Flow ε σ :=
  match flow with
  | next state => rest state
  | stop state => stop state
  | fail failure state => fail failure state

def rounds (body : σ → Flow ε σ) : Nat → σ → Flow ε σ
  | 0, state => stop state
  | count + 1, state => (body state).andThen (rounds body count)

variable (holds : σ → Prop)

theorem and_then_state {flow : Flow ε σ} {rest : σ → Flow ε σ}
    (first : holds flow.state) (kept : ∀ state, holds state → holds (rest state).state) :
    holds (flow.andThen rest).state := by
  cases flow with
  | next state => exact kept state first
  | stop | fail => exact first

variable {body : σ → Flow ε σ} (kept : ∀ state, holds state → holds (body state).state)
include kept

theorem rounds_state (count : Nat) {state : σ}
    (start : holds state) : holds (rounds body count state).state := by
  induction count generalizing state with
  | zero => exact start
  | succ count ih => exact and_then_state holds (kept state start) fun _ => ih

theorem rounds_state_of_first {count : Nat} (some : 0 < count) {state : σ}
    (first : holds (body state).state) : holds (rounds body count state).state := by
  cases count with
  | zero => exact absurd some (Nat.lt_irrefl 0)
  | succ count =>
    exact and_then_state holds first fun _ => rounds_state holds kept count

end Flow

end PulsarLite.Library
