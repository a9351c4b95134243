import Mathlib.Data.List.Basic

/-!
# The completion channel of a connection

A connection enqueues persistent messages for the write worker, which puts a completion
into the channel of the connection for each, with a blocking send. The counter
`pending_send_requests` limits what is enqueued. It also counts the non-persistent message
that is being published, and completions count until they are handled, one by one. The
steps are the awaits of the connection's task and the completions of the worker; what the
connection reads, and when, is left open.
-/

namespace PulsarLite.Broker.CompletionChannel

def maxPersistentInFlight : Nat := 1000

def capacity (maxPendingPublishRequests : Nat) : Nat :=
  max maxPendingPublishRequests maxPersistentInFlight

/-- Where the task of the connection waits. -/
inductive Phase
  | idle
  /-- A non-persistent message is published. -/
  | publishing
  /-- A persistent message waits for room, or for the checks of its topic. -/
  | draining
  /-- The message is with the worker, and not counted yet. -/
  | enqueued
  /-- Completions have been received together, and some are not handled yet. -/
  | completing (left : Nat)
  | closed

structure Cnx where
  pendingSendRequests : Nat
  phase : Phase
  /-- Requests with the worker. -/
  queued : Nat
  /-- Completions in the channel. -/
  channel : Nat

def Cnx.new : Cnx := ⟨0, .idle, 0, 0⟩

inductive Event
  | sendNonPersistent
  | published
  | sendPersistent
  | drainOne (failed : Bool)
  | rejected
  | enqueue
  | counted
  | receive (more : Nat)
  | completeOne (failed : Bool)
  | workerCompletes
  | close

/-- `complete_persistent_send`, up to its first await. -/
def Cnx.complete (cnx : Cnx) (failed : Bool) (next : Phase) : Cnx :=
  { cnx with
    pendingSendRequests := cnx.pendingSendRequests - 1
    phase := if failed then .closed else next }

/-- A step that does not fit the phase changes nothing. -/
def step (maxConcurrentNonPersistent : Nat) (cnx : Cnx) (event : Event) : Cnx :=
  match event, cnx.phase with
  | .sendNonPersistent, .idle =>
    if maxConcurrentNonPersistent ≤ cnx.pendingSendRequests then cnx
    else { cnx with pendingSendRequests := cnx.pendingSendRequests + 1, phase := .publishing }
  | .published, .publishing =>
    { cnx with pendingSendRequests := cnx.pendingSendRequests - 1, phase := .idle }
  | .sendPersistent, .idle => { cnx with phase := .draining }
  | .drainOne failed, .draining =>
    if maxPersistentInFlight ≤ cnx.pendingSendRequests ∧ 0 < cnx.channel then
      { cnx with channel := cnx.channel - 1 }.complete failed .draining
    else cnx
  | .rejected, .draining =>
    if cnx.pendingSendRequests < maxPersistentInFlight then { cnx with phase := .idle } else cnx
  | .enqueue, .draining =>
    if cnx.pendingSendRequests < maxPersistentInFlight then
      { cnx with queued := cnx.queued + 1, phase := .enqueued }
    else cnx
  | .counted, .enqueued =>
    { cnx with pendingSendRequests := cnx.pendingSendRequests + 1, phase := .idle }
  -- one completion is awaited, and more are taken if they are there
  | .receive more, .idle =>
    if 0 < cnx.channel then
      { cnx with
        channel := cnx.channel - min (more + 1) cnx.channel
        phase := .completing (min (more + 1) cnx.channel) }
    else cnx
  | .completeOne failed, .completing (left + 1) =>
    cnx.complete failed (if left = 0 then .idle else .completing left)
  | .workerCompletes, .closed => { cnx with queued := cnx.queued - 1 }
  | .workerCompletes, _ =>
    if 0 < cnx.queued then { cnx with queued := cnx.queued - 1, channel := cnx.channel + 1 }
    else cnx
  | .close, _ => { cnx with pendingSendRequests := 0, phase := .closed, channel := 0 }
  | _, _ => cnx

/-- How the counter stands to the requests whose completion has not been received. -/
def Balanced (cnx : Cnx) : Prop :=
  match cnx.phase with
  | .idle | .draining => cnx.pendingSendRequests = cnx.queued + cnx.channel
  | .publishing => cnx.pendingSendRequests = cnx.queued + cnx.channel + 1
  | .enqueued => cnx.pendingSendRequests + 1 = cnx.queued + cnx.channel
  | .completing left => cnx.pendingSendRequests = cnx.queued + cnx.channel + left
  | .closed => True

structure Bounded (cnx : Cnx) : Prop where
  balanced : Balanced cnx
  bound : cnx.queued + cnx.channel ≤ maxPersistentInFlight

theorem Bounded.step {cnx : Cnx} (bounded : Bounded cnx) (maxConcurrentNonPersistent : Nat)
    (event : Event) :
    Bounded (step maxConcurrentNonPersistent cnx event) := by
  obtain ⟨pending, phase, queued, channel⟩ := cnx
  have balanced := bounded.balanced
  have bound : queued + channel ≤ maxPersistentInFlight := bounded.bound
  cases event with
  | sendNonPersistent =>
    cases phase with
    | idle =>
      simp only [CompletionChannel.step]
      split_ifs with full
      · exact bounded
      · exact ⟨congrArg (· + 1) balanced, bound⟩
    | publishing | draining | enqueued | completing | closed => exact bounded
  | published =>
    cases phase with
    | publishing => exact ⟨congrArg (· - 1) balanced, bound⟩
    | idle | draining | enqueued | completing | closed => exact bounded
  | sendPersistent =>
    cases phase with
    | idle => exact ⟨balanced, bound⟩
    | publishing | draining | enqueued | completing | closed => exact bounded
  | drainOne failed =>
    cases phase with
    | draining =>
      simp only [CompletionChannel.step]
      split_ifs with waits
      · simp only [Balanced] at balanced
        refine ⟨?_, by simp only [Cnx.complete]; omega⟩
        cases failed with
        | true => exact trivial
        | false =>
          change pending - 1 = queued + (channel - 1)
          omega
      · exact bounded
    | idle | publishing | enqueued | completing | closed => exact bounded
  | rejected =>
    cases phase with
    | draining =>
      simp only [CompletionChannel.step]
      split_ifs with room
      · exact ⟨balanced, bound⟩
      · exact bounded
    | idle | publishing | enqueued | completing | closed => exact bounded
  | enqueue =>
    cases phase with
    | draining =>
      simp only [CompletionChannel.step]
      simp only [Balanced] at balanced
      split_ifs with room
      · refine ⟨?_, by dsimp only; omega⟩
        change pending + 1 = queued + 1 + channel
        omega
      · exact bounded
    | idle | publishing | enqueued | completing | closed => exact bounded
  | counted =>
    cases phase with
    | enqueued => exact ⟨balanced, bound⟩
    | idle | publishing | draining | completing | closed => exact bounded
  | receive more =>
    cases phase with
    | idle =>
      simp only [CompletionChannel.step]
      simp only [Balanced] at balanced
      split_ifs with ready
      · refine ⟨?_, by dsimp only; omega⟩
        change pending = queued + (channel - min (more + 1) channel) + min (more + 1) channel
        omega
      · exact bounded
    | publishing | draining | enqueued | completing | closed => exact bounded
  | completeOne failed =>
    cases phase with
    | completing left =>
      cases left with
      | zero => exact bounded
      | succ left =>
        simp only [Balanced] at balanced
        refine ⟨?_, bound⟩
        cases failed with
        | true => exact trivial
        | false =>
          simp only [CompletionChannel.step, Cnx.complete, Balanced, Bool.false_eq_true, if_false]
          split_ifs with last <;> dsimp only <;> omega
    | idle | publishing | draining | enqueued | closed => exact bounded
  | workerCompletes =>
    have moved : 0 < queued → queued - 1 + (channel + 1) = queued + channel := by omega
    cases phase with
    | closed => exact ⟨trivial, by simp only [CompletionChannel.step]; omega⟩
    | idle | publishing | draining | enqueued | completing =>
      simp only [CompletionChannel.step]
      split_ifs with busy
      · simp only [Balanced, ← moved busy] at balanced bound
        exact ⟨balanced, bound⟩
      · exact bounded
  | close =>
    refine ⟨trivial, ?_⟩
    simp only [CompletionChannel.step]
    omega

def run (maxConcurrentNonPersistent : Nat) (events : List Event) : Cnx :=
  events.foldl (step maxConcurrentNonPersistent) .new

theorem bounded_run (maxConcurrentNonPersistent : Nat) (events : List Event) :
    Bounded (run maxConcurrentNonPersistent events) :=
  List.foldlRecOn events _ ⟨rfl, Nat.zero_le _⟩ fun _ bounded event _ =>
    bounded.step maxConcurrentNonPersistent event

/-- For all settings and every interleaving: the requests whose completion has not been
received fit into the channel, so that the worker has nothing to complete or finds a free
slot. -/
theorem completions_fit_the_channel (maxPendingPublishRequests maxConcurrentNonPersistent : Nat)
    (events : List Event) :
    (run maxConcurrentNonPersistent events).queued +
        (run maxConcurrentNonPersistent events).channel ≤ capacity maxPendingPublishRequests ∧
    ((run maxConcurrentNonPersistent events).queued = 0 ∨
      (run maxConcurrentNonPersistent events).channel < capacity maxPendingPublishRequests) := by
  have bound := (bounded_run maxConcurrentNonPersistent events).bound
  have within : maxPersistentInFlight ≤ capacity maxPendingPublishRequests := Nat.le_max_right _ _
  constructor
  · omega
  · omega

example : (run 0 [.sendPersistent, .enqueue, .counted, .workerCompletes]).channel = 1 := by decide

end PulsarLite.Broker.CompletionChannel
