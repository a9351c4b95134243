import Mathlib.Algebra.Order.BigOperators.Group.List
import Mathlib.Logic.Function.Iterate
import PulsarLite.Library.Runs
import PulsarLite.Storage.Position

/-!
# The byte budget of a connection's channel

Any number of threads reserve bytes with a loop of exchanges, and what was reserved
is released. After a failed exchange the loop goes on with the value it has loaded
first: what the exchange has found is bound to a new name and dropped.
-/

namespace PulsarLite.Broker

open Library Storage

def defaultMaxChannelBytes : Nat := 64 * 1024 * 1024

/-- A thread in `try_reserve_channel_bytes` has the bytes it wants and what it has loaded. -/
structure ConnectionWriteState (ι : Type) where
  channelPendingBytes : Nat
  maxChannelBytes : Nat
  reserving : ι → Option (Nat × Nat)
  outstanding : List Nat

namespace ConnectionWriteState

inductive Event (ι : Type)
  /-- The load. -/
  | call (thread : ι) (bytes : Nat)
  /-- A turn of the loop. A weak exchange may fail for no reason. -/
  | exchange (thread : ι) (spurious : Bool)
  | release (bytes : Nat)

variable {ι : Type} [DecidableEq ι]

def new : ConnectionWriteState ι := ⟨0, defaultMaxChannelBytes, fun _ => none, []⟩

variable (state : ConnectionWriteState ι)

/-- A thread is in one call at a time, and a release is of a reservation. -/
def Allowed : Event ι → Prop
  | .call thread _ => state.reserving thread = none
  | .exchange _ _ => True
  | .release bytes => bytes ∈ state.outstanding

def goto (thread : ι) (place : Option (Nat × Nat)) : ConnectionWriteState ι :=
  { state with reserving := Function.update state.reserving thread place }

def exchange (thread : ι) (spurious : Bool) : ConnectionWriteState ι :=
  match state.reserving thread with
  | none => state
  | some (bytes, current) =>
    let next := min (current + bytes) (u64Modulus - 1)
    if state.maxChannelBytes < next then state.goto thread none
    else if state.channelPendingBytes = current ∧ spurious = false then
      { state.goto thread none with
        channelPendingBytes := next
        outstanding := bytes :: state.outstanding }
    else state

def step : Event ι → ConnectionWriteState ι
  | .call thread bytes => state.goto thread (some (bytes, state.channelPendingBytes))
  | .exchange thread spurious => state.exchange thread spurious
  | .release bytes => { state with
      channelPendingBytes := (state.channelPendingBytes + u64Modulus - bytes) % u64Modulus
      outstanding := state.outstanding.erase bytes }

structure Exact (state : ConnectionWriteState ι) : Prop where
  cap : state.maxChannelBytes = defaultMaxChannelBytes
  sum : state.channelPendingBytes = state.outstanding.sum
  within : state.channelPendingBytes ≤ state.maxChannelBytes

theorem default_lt_usize_max : defaultMaxChannelBytes < u64Modulus - 1 := by decide

variable {state : ConnectionWriteState ι}

theorem Exact.exchange (exact : state.Exact) (thread : ι) (spurious : Bool) :
    (state.exchange thread spurious).Exact := by
  have narrow := exact.cap ▸ default_lt_usize_max
  have sum := exact.sum
  unfold ConnectionWriteState.exchange
  split
  next => exact exact
  next bytes current _ =>
    dsimp only
    split_ifs with large swapped
    · exact ⟨exact.cap, exact.sum, exact.within⟩
    · have whole : min (current + bytes) (u64Modulus - 1) = bytes + state.outstanding.sum := by
        omega
      exact ⟨exact.cap, whole, not_lt.mp large⟩
    · exact exact

theorem Exact.step (exact : state.Exact) (event : Event ι) (allowed : state.Allowed event) :
    (state.step event).Exact := by
  cases event with
  | call thread bytes => exact ⟨exact.cap, exact.sum, exact.within⟩
  | exchange thread spurious => exact exact.exchange thread spurious
  | release bytes =>
    have parts := (List.perm_cons_erase allowed).sum_eq
    rw [List.sum_cons, ← exact.sum] at parts
    have within := exact.within
    have narrow := exact.cap ▸ default_lt_usize_max
    have rest : (state.channelPendingBytes + u64Modulus - bytes) % u64Modulus =
        (state.outstanding.erase bytes).sum := by
      rw [parts, Nat.add_assoc, Nat.add_sub_cancel_left, Nat.add_mod_right]
      exact Nat.mod_eq_of_lt (by omega)
    have fits : (state.outstanding.erase bytes).sum ≤ state.maxChannelBytes := by omega
    unfold ConnectionWriteState.step
    dsimp only
    rw [rest]
    exact ⟨exact.cap, rfl, fits⟩

/-- The budget is exact in every run. A call that is left alone, its exchanges not failing
for no reason, returns exactly if there is no room or what it has loaded is still there. -/
theorem channel_budget_exact_returns_iff (run : Run step Allowed new state) :
    state.channelPendingBytes = state.outstanding.sum ∧
    state.channelPendingBytes ≤ state.maxChannelBytes ∧
    ∀ thread bytes current, state.reserving thread = some (bytes, current) →
      ((∃ turns, ((exchange · thread false)^[turns] state).reserving thread = none) ↔
        state.maxChannelBytes < current + bytes ∨ state.channelPendingBytes = current) := by
  have exact : state.Exact :=
    run.invariant ⟨rfl, rfl, Nat.zero_le _⟩ fun _ event before => before.step event
  have narrow := exact.cap ▸ default_lt_usize_max
  refine ⟨exact.sum, exact.within, fun thread bytes current called => ?_⟩
  constructor
  · rintro ⟨turns, returned⟩
    by_contra stuck
    have same : state.exchange thread false = state := by
      unfold ConnectionWriteState.exchange
      rw [called]
      dsimp only
      rw [if_neg (by omega), if_neg (by omega)]
    rw [Function.iterate_fixed same, called] at returned
    cases returned
  · intro free
    refine ⟨1, ?_⟩
    change (state.exchange thread false).reserving thread = none
    unfold ConnectionWriteState.exchange
    rw [called]
    dsimp only
    split_ifs with large swapped
    · exact Function.update_self ..
    · exact Function.update_self ..
    · simp only [and_true] at swapped
      omega

/-- Two threads load zero, and the second one reserves its bytes first. -/
def sampleContended : ConnectionWriteState Bool :=
  [.call false 10, .call true 5, .exchange true false].foldl step new

theorem sample_contended_run : Run step Allowed new sampleContended :=
  Run.of_permits ⟨rfl, rfl, trivial, trivial⟩

theorem sample_contended_exact :
    sampleContended.channelPendingBytes = 5 ∧ sampleContended.outstanding.sum = 5 :=
  ⟨rfl, (channel_budget_exact_returns_iff sample_contended_run).1.symm⟩

theorem contended_call_never_returns :
    sampleContended.reserving false = some (10, 0) ∧ sampleContended.channelPendingBytes = 5 ∧
      ¬∃ turns, ((exchange · false false)^[turns] sampleContended).reserving false = none := by
  have same : sampleContended.exchange false false = sampleContended := rfl
  refine ⟨rfl, rfl, ?_⟩
  rintro ⟨turns, returned⟩
  rw [Function.iterate_fixed same] at returned
  cases returned

end ConnectionWriteState

end PulsarLite.Broker
