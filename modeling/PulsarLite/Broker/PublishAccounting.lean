import Mathlib.Data.List.Perm.Subperm
import PulsarLite.Broker.PublishWakeup

/-!
# The Sends under way, as a connection counts them

A connection counts its Sends and their bytes, and stops reading at the limits. It
keeps the sizes of its persistent Sends in the order in which it has enqueued them,
and takes the first size off for each completion. The worker completes a batch
ledger by ledger.
-/

namespace PulsarLite.Broker.PublishWakeup

open List

structure Throttle where
  maxPendingPublishRequests : Nat
  maxPendingPublishBytes : Nat
  maxConcurrentNonPersistent : Nat

structure Counters where
  pendingSendRequests : Nat
  pendingSendBytes : Nat
  pendingSendSizes : List Nat
  readPaused : Bool

namespace Counters

variable (throttle : Throttle) (counters : Counters)

def new : Counters := ⟨0, 0, [], false⟩

def maybePauseRead : Counters :=
  { counters with
    readPaused :=
      if throttle.maxPendingPublishRequests ≤ counters.pendingSendRequests ∨
        throttle.maxPendingPublishBytes ≤ counters.pendingSendBytes then true
      else counters.readPaused }

def maybeResumeReadAfterSend : Counters :=
  { counters with
    readPaused :=
      if counters.readPaused = true ∧
        counters.pendingSendRequests ≤ throttle.maxPendingPublishRequests / 2 ∧
        counters.pendingSendBytes ≤ throttle.maxPendingPublishBytes / 2 then false
      else counters.readPaused }

/-- The end of `handle_send` for a persistent topic. -/
def enqueue (size : Nat) : Counters :=
  { counters with
    pendingSendRequests := counters.pendingSendRequests + 1
    pendingSendBytes := counters.pendingSendBytes + size
    pendingSendSizes := counters.pendingSendSizes ++ [size] }.maybePauseRead throttle

/-- The beginning of `complete_persistent_send`. -/
def complete : Counters :=
  { counters with
    pendingSendRequests := counters.pendingSendRequests - 1
    pendingSendBytes := counters.pendingSendBytes - counters.pendingSendSizes.headD 0
    pendingSendSizes := counters.pendingSendSizes.tail }.maybeResumeReadAfterSend throttle

/-- `handle_send` for a non-persistent topic. -/
def publish (size : Nat) : Counters :=
  if throttle.maxConcurrentNonPersistent ≤ counters.pendingSendRequests then counters else
  let during := { counters with
    pendingSendRequests := counters.pendingSendRequests + 1
    pendingSendBytes := counters.pendingSendBytes + size }.maybePauseRead throttle
  { during with
    pendingSendRequests := during.pendingSendRequests - 1
    pendingSendBytes := during.pendingSendBytes - size }.maybeResumeReadAfterSend throttle

def Balanced : Prop := counters.pendingSendBytes = counters.pendingSendSizes.sum

variable {counters} (balanced : counters.Balanced)
include balanced

theorem Balanced.enqueue (size : Nat) :
    counters.pendingSendBytes + size = (counters.pendingSendSizes ++ [size]).sum := by
  rw [balanced, sum_append, sum_singleton]

theorem Balanced.complete : counters.pendingSendBytes -
    counters.pendingSendSizes.headD 0 = counters.pendingSendSizes.tail.sum := by
  rw [balanced]
  cases counters.pendingSendSizes <;> simp

theorem Balanced.bytes
    (empty : counters.pendingSendSizes.length = 0) : counters.pendingSendBytes = 0 := by
  rw [balanced, length_eq_zero_iff.mp empty]
  rfl

end Counters

/-- A Send that finds too many others under way handles completions until it can be
enqueued, and without a write queue a Send is completed at once: the completions stand
before and after it. A Send that is refused leaves the counters alone. -/
inductive Traffic
  | send (size : Nat)
  | sendNonPersistent (size : Nat)
  | completion

/-- The counters, and the number of enqueued Sends that have not been completed. -/
def pass (throttle : Throttle) (state : Counters × Nat) : Traffic → Counters × Nat
  | .send size => (state.1.enqueue throttle size, state.2 + 1)
  | .sendNonPersistent size => (state.1.publish throttle size, state.2)
  | .completion =>
    match state.2 with
    | 0 => state
    | left + 1 => (state.1.complete throttle, left)

structure Flowing (state : Counters × Nat) : Prop where
  requests : state.1.pendingSendRequests = state.2
  sizes : state.1.pendingSendSizes.length = state.2
  balanced : state.1.Balanced
  paused : state.1.readPaused = true → 0 < state.2

theorem flowing_resumed {counters : Counters} {left : Nat} (throttle : Throttle)
    (requests : counters.pendingSendRequests = left)
    (sizes : counters.pendingSendSizes.length = left) (balanced : counters.Balanced) :
    Flowing (counters.maybeResumeReadAfterSend throttle, left) := by
  refine ⟨requests, sizes, balanced, fun paused => Nat.pos_of_ne_zero fun none => ?_⟩
  have idle := requests.trans none
  have bytes := balanced.bytes (sizes.trans none)
  cases reading : counters.readPaused <;>
    simp [Counters.maybeResumeReadAfterSend, idle, bytes, reading] at paused

theorem Flowing.pass {state : Counters × Nat} (flowing : Flowing state) (throttle traffic) :
    Flowing (pass throttle state traffic) := by
  obtain ⟨counters, left⟩ := state
  have ⟨requests, sizes, balanced, _⟩ := flowing
  dsimp only at requests sizes balanced
  cases traffic with
  | send size =>
    refine ⟨congrArg (· + 1) requests, ?_, balanced.enqueue size, fun _ => Nat.succ_pos left⟩
    simp [PublishWakeup.pass, Counters.enqueue, Counters.maybePauseRead, sizes]
  | sendNonPersistent size =>
    unfold PublishWakeup.pass Counters.publish
    dsimp only
    split_ifs
    · exact flowing
    · apply flowing_resumed throttle
      · exact requests
      · exact sizes
      · exact (Nat.add_sub_cancel _ _).trans balanced
  | completion =>
    cases left with
    | zero => exact flowing
    | succ left =>
      apply flowing_resumed throttle
      · exact congrArg (· - 1) requests
      · exact length_tail.trans (congrArg (· - 1) sizes)
      · exact balanced.complete

/-- Whatever the limits are, reading is not paused once every Send is completed. -/
theorem read_pause_never_sticks (throttle : Throttle) (traffic : List Traffic) :
    let state := traffic.foldl (pass throttle) (.new, 0)
    state.1.pendingSendRequests = state.2 ∧ (state.2 = 0 → state.1.pendingSendBytes = 0) ∧
      (state.1.readPaused = true → 0 < state.1.pendingSendRequests) ∧
      (state.2 = 0 → state.1.readPaused = false) := by
  intro state
  have flowing : Flowing state :=
    foldlRecOn (motive := Flowing) traffic _ ⟨rfl, rfl, rfl, by simp [Counters.new]⟩
      fun _ before next _ => before.pass throttle next
  refine ⟨flowing.requests, fun none => flowing.balanced.bytes (flowing.sizes.trans none),
    flowing.requests ▸ flowing.paused, fun none => ?_⟩
  by_contra paused
  have some := flowing.paused (Bool.eq_true_of_not_eq_false paused)
  omega

variable (size : Send → Nat) (throttle : Throttle) (connection : Nat)

def total (sends : List Send) : Nat := (sends.map size).sum

/-- The counters of one connection, the Sends that it has enqueued, and those whose
completions it has handled. -/
structure Books where
  sys : System
  counters : Counters
  enqueued : List Send
  handled : List Send

namespace Books

def step (books : Books) (action : Action) : Books where
  sys := PublishWakeup.step books.sys action
  counters :=
    match enqueues connection books.sys action, handles connection books.sys action with
    | some send, _ => books.counters.enqueue throttle (size send)
    | none, some _ => books.counters.complete throttle
    | none, none => books.counters
  enqueued := books.enqueued ++ (enqueues connection books.sys action).toList
  handled := books.handled ++ (handles connection books.sys action).toList

def keep (actions : List Action) : Books :=
  actions.foldl (step size throttle connection) ⟨start, .new, [], []⟩

structure Kept (books : Books) : Prop where
  sizes : books.counters.pendingSendSizes = (books.enqueued.drop books.handled.length).map size
  balanced : books.counters.Balanced
  accounted : ∀ send, books.handled.count send + underWay connection books.sys send ≤
    books.enqueued.count send

variable {size connection} {books : Books}

theorem Kept.within (kept : Kept size connection books) :
    ∀ send ∈ books.handled, books.handled.count send ≤ books.enqueued.count send :=
  fun send _ => Nat.le_of_add_right_le (kept.accounted send)

theorem Kept.step (kept : Kept size connection books) (action : Action) :
    Kept size connection (books.step size throttle connection action) := by
  have few : books.handled.length ≤ books.enqueued.length :=
    (subperm_ext_iff.mpr kept.within).length_le
  have accounted : ∀ send, (books.step size throttle connection action).handled.count send +
      underWay connection (books.step size throttle connection action).sys send ≤
        (books.step size throttle connection action).enqueued.count send := by
    intro send
    have before := kept.accounted send
    have effect := under_way_effect connection (step_effect books.sys action) send
    simp only [Books.step, count_append]
    omega
  unfold Books.step at accounted ⊢
  cases isEnqueued : enqueues connection books.sys action with
  | some send =>
    have nothing : handles connection books.sys action = none := by
      cases action with
      | handleSend => rfl
      | _ => cases isEnqueued
    rw [isEnqueued, nothing] at accounted
    rw [nothing]
    refine ⟨?_, kept.balanced.enqueue _, accounted⟩
    simp [Counters.enqueue, Counters.maybePauseRead, kept.sizes, drop_append_of_le_length few]
  | none =>
    rw [isEnqueued] at accounted
    cases isHandled : handles connection books.sys action with
    | some send =>
      rw [isHandled] at accounted
      refine ⟨?_, kept.balanced.complete, accounted⟩
      simp [Counters.complete, Counters.maybeResumeReadAfterSend, kept.sizes]
    | none =>
      rw [isHandled] at accounted
      exact ⟨by simpa using kept.sizes, kept.balanced, accounted⟩

/-- The count is exact when the Sends that were completed weigh as much as those that were
enqueued first, as many as they are. -/
theorem pending_send_bytes_exact_iff (size : Send → Nat) (throttle : Throttle) (connection : Nat)
    (actions : List Action) :
    let books := keep size throttle connection actions
    books.counters.pendingSendBytes = total size (books.enqueued.diff books.handled) ↔
      total size books.handled = total size (books.enqueued.take books.handled.length) := by
  intro books
  have kept : Kept size connection books :=
    foldlRecOn (motive := Kept size connection) actions _ ⟨rfl, rfl, by simp [underWay, start]⟩
      fun _ before action _ => before.step throttle action
  have bytes : books.counters.pendingSendBytes =
      total size (books.enqueued.drop books.handled.length) :=
    kept.balanced.trans (congrArg sum kept.sizes)
  have parts : total size books.handled + total size (books.enqueued.diff books.handled) =
      total size books.enqueued := by
    have perm := subperm_append_diff_self_of_count_le kept.within
    rw [total, total, total, ← sum_append, ← map_append]
    exact (perm.map size).sum_nat
  have split : total size (books.enqueued.take books.handled.length) +
      total size (books.enqueued.drop books.handled.length) = total size books.enqueued := by
    rw [total, total, total, ← sum_append, ← map_append, take_append_drop]
  omega

/-- Sends of 10, 20 and 30 bytes, the second to another topic. -/
def crossing : List Action :=
  [.handleProducer 0 0 topicOne, .handleProducer 0 1 topicTwo, .handleSend 0 0, .handleSend 0 1,
    .handleSend 0 0, .takesBatch 3, .appendsGroup true, .completes, .completes,
    .completePersistentSend 0 true, .completePersistentSend 0 true]

theorem crossing_counts_wrong_send :
    let books := keep (fun send => 10 * (send.message + 1)) ⟨9, 99, 9⟩ 0 crossing
    books.counters.pendingSendBytes = 30 ∧
      (books.enqueued.diff books.handled).map Send.message = [1] := by
  decide

end Books

end PulsarLite.Broker.PublishWakeup
