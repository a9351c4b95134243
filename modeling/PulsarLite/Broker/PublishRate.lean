import PulsarLite.Storage.MemoryStore

/-!
# The publish rate of a topic

A topic counts what it accepts in windows of a second. Whatever is published and however
the limits change, no window exceeds them, and only what would exceed one is refused. A
limit of the last `u64` does not bound, since the counters stop there.
-/

namespace PulsarLite.Broker

open Storage

structure TopicPublishRate where
  messagesPerSec : Nat
  bytesPerSec : Nat

abbrev TopicPublishRate.Unlimited (limits : TopicPublishRate) : Prop :=
  limits.messagesPerSec = 0 ∧ limits.bytesPerSec = 0

structure TopicPublishRateLimiterState where
  limits : TopicPublishRate
  windowStartedAt : Nat
  messagesInWindow : Nat
  bytesInWindow : Nat

namespace TopicPublishRateLimiterState

def setLimits (now : Nat) (limits : TopicPublishRate) : TopicPublishRateLimiterState :=
  ⟨limits, now, 0, 0⟩

variable (state : TopicPublishRateLimiterState) (now : Nat)

/-- Times are in nanoseconds. -/
def elapsed : Bool := decide (10 ^ 9 ≤ now - state.windowStartedAt)

def refresh : TopicPublishRateLimiterState :=
  if state.elapsed now then ⟨state.limits, now, 0, 0⟩ else state

def allowPublish (messageCount bytes : Nat) : Bool × TopicPublishRateLimiterState :=
  if state.limits.Unlimited then (true, state)
  else
    let state := state.refresh now
    let nextMessages := min (state.messagesInWindow + messageCount) u64Max
    let nextBytes := min (state.bytesInWindow + bytes) u64Max
    if (state.limits.messagesPerSec = 0 ∨ nextMessages ≤ state.limits.messagesPerSec) ∧
      (state.limits.bytesPerSec = 0 ∨ nextBytes ≤ state.limits.bytesPerSec) then
      (true, { state with
        messagesInWindow := nextMessages
        bytesInWindow := nextBytes })
    else (false, state)

end TopicPublishRateLimiterState

inductive PublishRateEvent
  | setLimits (now : Nat) (limits : TopicPublishRate)
  | publish (now messageCount bytes : Nat)

/-- The limiter, and what it has accepted in its window. -/
structure PublishWindow where
  limiter : TopicPublishRateLimiterState
  accepted : List (Nat × Nat)

namespace PublishWindow

variable (window : PublishWindow)

def messages : Nat := (window.accepted.map Prod.fst).sum

def bytes : Nat := (window.accepted.map Prod.snd).sum

def refresh (now : Nat) : PublishWindow where
  limiter := window.limiter.refresh now
  accepted := if window.limiter.elapsed now then [] else window.accepted

/-- Without limits there are no windows; each change of them begins one. -/
def step : PublishRateEvent → PublishWindow
  | .setLimits now limits => ⟨.setLimits now limits, []⟩
  | .publish now messageCount bytes =>
    let outcome := window.limiter.allowPublish now messageCount bytes
    let fresh := (window.refresh now).accepted
    if window.limiter.limits.Unlimited then window
    else ⟨outcome.2, if outcome.1 then (messageCount, bytes) :: fresh else fresh⟩

structure Counted : Prop where
  messages : window.limiter.messagesInWindow = min window.messages u64Max
  bytes : window.limiter.bytesInWindow = min window.bytes u64Max
  underMessages : window.limiter.limits.messagesPerSec = 0 ∨
    window.limiter.messagesInWindow ≤ window.limiter.limits.messagesPerSec
  underBytes : window.limiter.limits.bytesPerSec = 0 ∨
    window.limiter.bytesInWindow ≤ window.limiter.limits.bytesPerSec

variable {window}

theorem counted_set_limits (now limits) : Counted ⟨.setLimits now limits, []⟩ :=
  ⟨rfl, rfl, .inr (Nat.zero_le _), .inr (Nat.zero_le _)⟩

theorem Counted.refresh (counted : window.Counted) (now : Nat) : (window.refresh now).Counted := by
  unfold PublishWindow.refresh TopicPublishRateLimiterState.refresh
  split_ifs
  · exact counted_set_limits now window.limiter.limits
  · exact counted

theorem Counted.step (counted : window.Counted) (event) : (window.step event).Counted := by
  cases event with
  | setLimits now limits => exact counted_set_limits now limits
  | publish now messageCount bytes =>
    have fresh := counted.refresh now
    have messages : (window.limiter.refresh now).messagesInWindow = _ := fresh.messages
    have weighs : (window.limiter.refresh now).bytesInWindow = _ := fresh.bytes
    simp only [PublishWindow.step, TopicPublishRateLimiterState.allowPublish]
    split_ifs with unlimited fits
    · exact counted
    · refine ⟨?_, ?_, fits.1, fits.2⟩
      · simp only [PublishWindow.messages, List.map_cons, List.sum_cons] at messages ⊢
        omega
      · simp only [PublishWindow.bytes, List.map_cons, List.sum_cons] at weighs ⊢
        omega
    all_goals first | exact fresh | contradiction

theorem le_of_counted {counter total limit : Nat} (counts : counter = min total u64Max)
    (under : limit = 0 ∨ counter ≤ limit) (bounds : limit ≠ 0) (below : limit < u64Max) :
    total ≤ limit := by
  omega

theorem publish_rate_exact (started : Nat) (events : List PublishRateEvent) :
    let window := events.foldl step ⟨.setLimits started ⟨0, 0⟩, []⟩
    let limits := window.limiter.limits
    (limits.messagesPerSec ≠ 0 → limits.messagesPerSec < u64Max →
      window.messages ≤ limits.messagesPerSec) ∧
    (limits.bytesPerSec ≠ 0 → limits.bytesPerSec < u64Max →
      window.bytes ≤ limits.bytesPerSec) ∧
    ∀ now messageCount bytes, (window.limiter.allowPublish now messageCount bytes).1 = false →
      limits.messagesPerSec ≠ 0 ∧
        limits.messagesPerSec < (window.refresh now).messages + messageCount ∨
      limits.bytesPerSec ≠ 0 ∧ limits.bytesPerSec < (window.refresh now).bytes + bytes := by
  intro window limits
  have counted : window.Counted := List.foldlRecOn (motive := Counted) events step
    (counted_set_limits started ⟨0, 0⟩) fun _ before event _ => before.step event
  refine ⟨le_of_counted counted.messages counted.underMessages,
    le_of_counted counted.bytes counted.underBytes, ?_⟩
  intro now messageCount bytes refused
  have fresh := counted.refresh now
  have messages : (window.limiter.refresh now).messagesInWindow = _ := fresh.messages
  have weighs : (window.limiter.refresh now).bytesInWindow = _ := fresh.bytes
  have same : (window.limiter.refresh now).limits = limits := by
    unfold TopicPublishRateLimiterState.refresh
    split_ifs <;> rfl
  simp only [TopicPublishRateLimiterState.allowPublish, same] at refused
  split_ifs at refused with unlimited fits
  omega

end PublishWindow

end PulsarLite.Broker
