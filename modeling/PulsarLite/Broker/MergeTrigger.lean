import Mathlib.Logic.Function.Basic
import PulsarLite.Library.Runs

/-!
# The merge-trigger of the shared dispatcher

`SharedDispatcher::dispatch_messages` lets one call run passes at a time. A call
that finds `dispatch_in_progress` taken leaves a mark in `should_reschedule` and
returns. The running call gives the guard back after its pass, takes the mark
away, and goes for the guard again if there was one. Every store and swap is a
step of its own, and any number of calls may be interleaved in any way.
-/

namespace PulsarLite.Broker.MergeTrigger

open Library Function List

variable {other : Nat}

/-- How far a call of `dispatch_messages` has come. -/
inductive Call
  | awaited
  | deferring
  | acquired
  | passing
  | passed
  | released
  | retaking
  | failed
  | returned
deriving DecidableEq

inductive Event
  | swapped (call : Nat)
  | passStarted (call : Nat)
deriving DecidableEq

structure System where
  dispatchInProgress : Bool
  shouldReschedule : Bool
  calls : Nat → Call
  history : List Event

def start : System where
  dispatchInProgress := false
  shouldReschedule := false
  calls := fun _ => .awaited
  history := []

variable (sys : System) (call : Nat)

def setCall (progress : Call) : System :=
  { sys with calls := update sys.calls call progress }

def swapsIn : System :=
  match sys.calls call with
  | .awaited =>
    { setCall sys call (if sys.dispatchInProgress then .deferring else .acquired) with
      dispatchInProgress := true
      history := sys.history ++ [.swapped call] }
  | _ => sys

def storesMark : System :=
  match sys.calls call with
  | .deferring => { setCall sys call .returned with shouldReschedule := true }
  | _ => sys

def startsPass : System :=
  match sys.calls call with
  | .acquired => { setCall sys call .passing with
      history := sys.history ++ [.passStarted call] }
  | _ => sys

/-- The pass has run to its end, or a storage error has ended it. -/
def endsPass (succeeds : Bool) : System :=
  match sys.calls call with
  | .passing => setCall sys call (if succeeds then .passed else .failed)
  | _ => sys

def releases : System :=
  match sys.calls call with
  | .passed => { setCall sys call .released with dispatchInProgress := false }
  | _ => sys

def swapsMark : System :=
  match sys.calls call with
  | .released =>
    { setCall sys call (if sys.shouldReschedule then .retaking else .returned) with
      shouldReschedule := false }
  | _ => sys

/-- The swap before a further pass, which some other call may have won. -/
def swapsAgain : System :=
  match sys.calls call with
  | .retaking =>
    { setCall sys call (if sys.dispatchInProgress then .returned else .acquired) with
      dispatchInProgress := true }
  | _ => sys

def releasesFailed : System :=
  match sys.calls call with
  | .failed => { setCall sys call .returned with dispatchInProgress := false }
  | _ => sys

inductive Action
  | swapsIn (call : Nat)
  | storesMark (call : Nat)
  | startsPass (call : Nat)
  | endsPass (call : Nat) (succeeds : Bool)
  | releases (call : Nat)
  | swapsMark (call : Nat)
  | swapsAgain (call : Nat)
  | releasesFailed (call : Nat)

def step : Action → System
  | .swapsIn call => swapsIn sys call
  | .storesMark call => storesMark sys call
  | .startsPass call => startsPass sys call
  | .endsPass call succeeds => endsPass sys call succeeds
  | .releases call => releases sys call
  | .swapsMark call => swapsMark sys call
  | .swapsAgain call => swapsAgain sys call
  | .releasesFailed call => releasesFailed sys call

def Quiet : Prop :=
  ∀ call, sys.calls call = .awaited ∨ sys.calls call = .returned

def Followed (history : List Event) : Prop :=
  ∀ before call after, history = before ++ .swapped call :: after →
    ∃ runner, .passStarted runner ∈ after

def NoLostWakeup : Prop :=
  Quiet sys → Followed sys.history ∧ sys.shouldReschedule = false

def NoneDeferring : Prop := ∀ call, sys.calls call ≠ .deferring

/-- A call that has given the guard back takes the mark away only while no call is
about to set it, or leaves it untouched if another call has the guard by then. A
pass that failed is left only when there is no mark and none is about to be set. -/
def Careful : Action → Prop
  | .swapsMark _ =>
    if sys.dispatchInProgress then sys.shouldReschedule = false else NoneDeferring sys
  | .releasesFailed _ => sys.shouldReschedule = false ∧ NoneDeferring sys
  | _ => True

def Unserved (history : List Event) (call : Nat) : Prop :=
  ∃ before after, history = before ++ .swapped call :: after ∧
    ∀ runner, .passStarted runner ∉ after

theorem followed_iff (history : List Event) : Followed history ↔
    ∀ call, ¬ Unserved history call := by
  constructor
  · intro followed call unserved
    obtain ⟨before, after, split, none⟩ := unserved
    obtain ⟨runner, member⟩ := followed before call after split
    exact none runner member
  intro served before call after split
  by_contra missing
  apply served call
  refine ⟨before, after, split, ?_⟩
  intro runner member
  exact missing ⟨runner, member⟩

variable {history : List Event}

theorem split_concat {before after event call}
    (split : history ++ [event] = before ++ .swapped call :: after) :
    event = .swapped call ∧ after = [] ∨
      ∃ earlier, after = earlier ++ [event] ∧ history = before ++ .swapped call :: earlier := by
  rcases eq_nil_or_concat after with rfl | ⟨earlier, last, rfl⟩
  · have ends : history ++ [event] = before ++ [.swapped call] := split
    obtain ⟨_, same⟩ := append_inj' ends rfl
    exact .inl ⟨singleton_inj.mp same, rfl⟩
  have ends : history ++ [event] = (before ++ .swapped call :: earlier) ++ [last] := by
    simpa using split
  obtain ⟨sameHistory, sameLast⟩ := append_inj' ends rfl
  rw [singleton_inj.mp sameLast]
  exact .inr ⟨earlier, by simp, sameHistory⟩

theorem unserved_swapped {call : Nat} (unserved : Unserved (history ++ [.swapped call]) other) :
    other = call ∨ Unserved history other := by
  obtain ⟨before, after, split, none⟩ := unserved
  rcases split_concat split with ⟨same, _⟩ | ⟨earlier, rfl, shorter⟩
  · left
    cases same
    rfl
  · right
    refine ⟨before, earlier, shorter, ?_⟩
    intro runner member
    exact none runner (mem_append_left _ member)

theorem not_unserved_pass_started (history runner call) :
    ¬ Unserved (history ++ [.passStarted runner]) call := by
  rintro ⟨before, after, split, none⟩
  rcases split_concat split with ⟨impossible, _⟩ | ⟨earlier, rfl, _⟩
  · cases impossible
  · exact none runner (by simp)

section

def Call.Holds : Call → Prop
  | .acquired | .passing | .passed | .failed => True
  | _ => False

/-- What the two flags promise: somebody has the guard while it is taken, somebody
will still look at a mark that is set or about to be set, and every call without
a pass is about to set the mark, has set it, or is waited for by the next pass. -/
structure Watched (sys : System) : Prop where
  held : sys.dispatchInProgress = true → ∃ call, (sys.calls call).Holds
  marked : (sys.shouldReschedule = true ∨ ∃ call, sys.calls call = .deferring) →
    sys.dispatchInProgress = true ∨ ∃ call, sys.calls call = .released
  served : ∀ call, Unserved sys.history call →
    sys.calls call = .deferring ∨ sys.shouldReschedule = true ∨
      (∃ runner, sys.calls runner = .acquired) ∨
      sys.dispatchInProgress = false ∧ ∃ runner, sys.calls runner = .retaking

theorem watched_start : Watched start where
  held taken := by cases taken
  marked owed := by
    rcases owed with set | ⟨call, deferring⟩
    · cases set
    · cases deferring
  served call unserved := by
    obtain ⟨before, after, split, _⟩ := unserved
    simp [start] at split

theorem Watched.no_lost_wakeup {sys : System} (watched : Watched sys) : NoLostWakeup sys := by
  intro quiet
  have noneHolds call : ¬ (sys.calls call).Holds := by
    rcases quiet call with same | same <;> simp [same, Call.Holds]
  have free : sys.dispatchInProgress = false := by
    by_contra taken
    obtain ⟨call, holds⟩ := watched.held (by simpa using taken)
    exact noneHolds call holds
  have clear : sys.shouldReschedule = false := by
    by_contra set
    rcases watched.marked (.inl (by simpa using set)) with taken | ⟨call, released⟩
    · simp [free] at taken
    · rcases quiet call with same | same <;> simp [same] at released
  refine ⟨?_, clear⟩
  rw [followed_iff]
  intro call unserved
  rcases watched.served call unserved with here | set | ⟨runner, here⟩ | ⟨_, runner, here⟩
  · rcases quiet call with same | same <;> simp [same] at here
  · simp [clear] at set
  all_goals rcases quiet runner with same | same <;> simp [same] at here

variable {sys : System} {call : Nat} {here progress : Call}

theorem still_at (found : sys.calls other = here) (different : sys.calls call ≠ here) :
    (setCall sys call progress).calls other = here := by
  have apart : other ≠ call := by
    intro same
    rw [same] at found
    exact different found
  simpa [setCall, apart] using found

theorem still_some (found : ∃ other, sys.calls other = here) (different : sys.calls call ≠ here) :
    ∃ other, (setCall sys call progress).calls other = here := by
  obtain ⟨other, found⟩ := found
  exact ⟨other, still_at found different⟩

theorem still_held (found : ∃ other, (sys.calls other).Holds) (here : ¬ (sys.calls call).Holds) :
    ∃ other, ((setCall sys call progress).calls other).Holds := by
  obtain ⟨other, holds⟩ := found
  refine ⟨other, ?_⟩
  rw [still_at rfl]
  · exact holds
  · intro same
    rw [same] at here
    exact here holds

theorem some_before (found : ∃ other, (setCall sys call progress).calls other = here)
    (fresh : progress ≠ here) :
    ∃ other, sys.calls other = here := by
  obtain ⟨other, found⟩ := found
  by_cases same : other = call
  · simp [setCall, same, fresh] at found
  · exact ⟨other, by simpa [setCall, same] using found⟩

theorem watched_of_acquired (taken : sys.dispatchInProgress = true)
    (here : sys.calls call = .acquired) : Watched sys where
  held _ := ⟨call, by simp [here, Call.Holds]⟩
  marked _ := .inl taken
  served _ _ := .inr (.inr (.inl ⟨call, here⟩))

variable (watched : Watched sys)
include watched

theorem watched_swaps_in : Watched (swapsIn sys call) := by
  unfold swapsIn
  split
  · next awaited =>
      cases taken : sys.dispatchInProgress with
      | true =>
        exact {
          held _ := still_held (watched.held taken) (by simp [awaited, Call.Holds])
          marked _ := .inl rfl
          served other unserved := by
            rcases unserved_swapped unserved with rfl | before
            · exact .inl (by simp [setCall])
            rcases watched.served other before with here | set | acquired | ⟨free, _⟩
            · exact .inl (still_at here (by simp [awaited]))
            · exact .inr (.inl set)
            · exact .inr (.inr (.inl (still_some acquired (by simp [awaited]))))
            · simp [taken] at free }
      | false =>
        exact watched_of_acquired rfl (update_self call _ _)
  · exact watched

theorem watched_stores_mark : Watched (storesMark sys call) := by
  unfold storesMark
  split
  · next deferring =>
      exact {
        held taken := still_held (watched.held taken) (by simp [deferring, Call.Holds])
        marked _ := by
          rcases watched.marked (.inr ⟨call, deferring⟩) with taken | released
          · exact .inl taken
          · exact .inr (still_some released (by simp [deferring]))
        served _ _ := .inr (.inl rfl) }
  · exact watched

theorem Watched.marked_holder (here : sys.calls call ≠ .released) (fresh : progress ≠ .deferring)
    (owed : sys.shouldReschedule = true ∨ ∃ other,
      (setCall sys call progress).calls other = .deferring) :
    sys.dispatchInProgress = true ∨
      ∃ other, (setCall sys call progress).calls other = .released := by
  have before : sys.shouldReschedule = true ∨ ∃ other, sys.calls other = .deferring := by
    rcases owed with set | deferring
    · exact .inl set
    · exact .inr (some_before deferring fresh)
  rcases watched.marked before with taken | released
  · exact .inl taken
  · exact .inr (still_some released here)

theorem watched_starts_pass : Watched (startsPass sys call) := by
  unfold startsPass
  split
  · next acquired =>
      exact {
        held _ := ⟨call, by simp [setCall, Call.Holds]⟩
        marked := watched.marked_holder (by simp [acquired]) (by decide)
        served other unserved :=
          absurd unserved (not_unserved_pass_started sys.history call other) }
  · exact watched

theorem watched_ends_pass (succeeds : Bool) : Watched (endsPass sys call succeeds) := by
  unfold endsPass
  split
  · next passing =>
      exact {
        held _ := ⟨call, by cases succeeds <;> simp [setCall, Call.Holds]⟩
        marked := watched.marked_holder (by simp [passing]) (by cases succeeds <;> decide)
        served other unserved := by
          rcases watched.served other unserved with here | set | acquired | ⟨free, retaking⟩
          · exact .inl (still_at here (by simp [passing]))
          · exact .inr (.inl set)
          · exact .inr (.inr (.inl (still_some acquired (by simp [passing]))))
          · exact .inr (.inr (.inr ⟨free, still_some retaking (by simp [passing])⟩)) }
  · exact watched

theorem watched_releases : Watched (releases sys call) := by
  unfold releases
  split
  · next passed =>
      exact {
        held taken := by cases taken
        marked _ := .inr ⟨call, by simp [setCall]⟩
        served other unserved := by
          rcases watched.served other unserved with here | set | acquired | ⟨_, retaking⟩
          · exact .inl (still_at here (by simp [passed]))
          · exact .inr (.inl set)
          · exact .inr (.inr (.inl (still_some acquired (by simp [passed]))))
          · exact .inr (.inr (.inr ⟨rfl, still_some retaking (by simp [passed])⟩)) }
  · exact watched

/-- Whoever had not been served is waited for by this call, if the mark is its own
to take. -/
theorem watched_swaps_mark (careful : Careful sys (.swapsMark call)) :
    Watched (swapsMark sys call) := by
  unfold swapsMark
  split
  · next released =>
      cases taken : sys.dispatchInProgress with
      | true =>
        have clear : sys.shouldReschedule = false := by simpa [Careful, taken] using careful
        exact {
          held _ := still_held (watched.held taken) (by simp [released, Call.Holds])
          marked _ := .inl taken
          served other unserved := by
            rcases watched.served other unserved with here | set | acquired | ⟨free, _⟩
            · exact .inl (still_at here (by simp [released]))
            · simp [clear] at set
            · exact .inr (.inr (.inl (still_some acquired (by simp [released]))))
            · simp [taken] at free }
      | false =>
        have noneDeferring : NoneDeferring sys := by simpa [Careful, taken] using careful
        exact {
          held impossible := by
            simp [setCall, taken] at impossible
          marked owed := by
            rcases owed with impossible | deferring
            · cases impossible
            · obtain ⟨other, deferring⟩ := some_before deferring (by
                split <;> decide)
              exact absurd deferring (noneDeferring other)
          served other unserved := by
            rcases watched.served other unserved with here | set | acquired | ⟨_, retaking⟩
            · exact absurd here (noneDeferring other)
            · refine .inr (.inr (.inr ⟨taken, call, ?_⟩))
              simp [setCall, set]
            · exact .inr (.inr (.inl (still_some acquired (by simp [released]))))
            · exact .inr (.inr (.inr ⟨taken, still_some retaking (by simp [released])⟩)) }
  · exact watched

theorem watched_swaps_again : Watched (swapsAgain sys call) := by
  unfold swapsAgain
  split
  · next retaking =>
      cases taken : sys.dispatchInProgress with
      | true =>
        exact {
          held _ := still_held (watched.held taken) (by simp [retaking, Call.Holds])
          marked _ := .inl rfl
          served other unserved := by
            rcases watched.served other unserved with here | set | acquired | ⟨free, _⟩
            · exact .inl (still_at here (by simp [retaking]))
            · exact .inr (.inl set)
            · exact .inr (.inr (.inl (still_some acquired (by simp [retaking]))))
            · simp [taken] at free }
      | false =>
        exact watched_of_acquired rfl (update_self call _ _)
  · exact watched

theorem watched_releases_failed (careful : Careful sys (.releasesFailed call)) :
    Watched (releasesFailed sys call) := by
  obtain ⟨clear, noneDeferring⟩ := careful
  unfold releasesFailed
  split
  · next failed =>
      exact {
        held taken := by cases taken
        marked owed := by
          rcases owed with set | deferring
          · simp [setCall, clear] at set
          · obtain ⟨other, deferring⟩ := some_before deferring (by decide)
            exact absurd deferring (noneDeferring other)
        served other unserved := by
          rcases watched.served other unserved with here | set | acquired | ⟨_, retaking⟩
          · exact absurd here (noneDeferring other)
          · simp [clear] at set
          · exact .inr (.inr (.inl (still_some acquired (by simp [failed]))))
          · exact .inr (.inr (.inr ⟨rfl, still_some retaking (by simp [failed])⟩)) }
  · exact watched

theorem watched_step (action : Action) (careful : Careful sys action) : Watched
    (step sys action) := by
  cases action with
  | swapsIn call => exact watched_swaps_in watched
  | storesMark call => exact watched_stores_mark watched
  | startsPass call => exact watched_starts_pass watched
  | endsPass call succeeds => exact watched_ends_pass watched succeeds
  | releases call => exact watched_releases watched
  | swapsMark call => exact watched_swaps_mark watched careful
  | swapsAgain call => exact watched_swaps_again watched
  | releasesFailed call => exact watched_releases_failed watched careful

end

/-- In a run whose calls do not cross as `Careful` forbids, no wake-up is lost. -/
theorem careful_wakeups_are_not_lost (sys : System) (run : Run step Careful start sys) :
    NoLostWakeup sys := by
  apply Watched.no_lost_wakeup
  apply run.invariant watched_start
  intro state action watched careful
  exact watched_step watched action careful

/-- The first call runs a pass while the second one leaves its mark, and runs
another pass for it. -/
def mergedCalls : List Action :=
  [.swapsIn 0, .startsPass 0, .swapsIn 1, .storesMark 1, .endsPass 0 true, .releases 0,
    .swapsMark 0, .swapsAgain 0, .startsPass 0, .endsPass 0 true, .releases 0, .swapsMark 0]

theorem careful_wakeups_are_not_lost_merged :
    (mergedCalls.foldl step start).history =
        [.swapped 0, .passStarted 0, .swapped 1, .passStarted 0] ∧
      NoLostWakeup (mergedCalls.foldl step start) := by
  refine ⟨rfl, careful_wakeups_are_not_lost _ (.of_permits ?_)⟩
  refine ⟨trivial, trivial, trivial, trivial, trivial, trivial, ?_, trivial, trivial, trivial,
    trivial, ?_, trivial⟩
  all_goals
    intro call
    rcases call with _ | _ | call <;>
      simp [step, swapsIn, startsPass, endsPass, releases, swapsMark, swapsAgain, storesMark,
        setCall, start, update]

/-- The second call sees the guard taken, and stores its mark after the first one
has looked for it. -/
def lateMark : List Action :=
  [.swapsIn 0, .startsPass 0, .endsPass 0 true, .swapsIn 1, .releases 0, .swapsMark 0,
    .storesMark 1]

def failedPass : List Action :=
  [.swapsIn 0, .startsPass 0, .swapsIn 1, .storesMark 1, .endsPass 0 false, .releasesFailed 0]

/-- The mark that the third call left for the second one's loop is taken away by
the first one, which then finds the guard taken. -/
def crossedLoops : List Action :=
  [.swapsIn 0, .startsPass 0, .endsPass 0 true, .releases 0, .swapsIn 1, .startsPass 1,
    .swapsIn 2, .storesMark 2, .swapsMark 0, .swapsAgain 0, .endsPass 1 true, .releases 1,
    .swapsMark 1]

theorem not_followed_of_last {call : Nat} (last : history.getLast? = some (.swapped call)) :
    ¬ Followed history := by
  intro followed
  obtain ⟨before, rfl⟩ := getLast?_eq_some_iff.mp last
  obtain ⟨runner, member⟩ := followed before call [] rfl
  cases member

theorem lost_of_last {actions : List Action} {call : Nat} (quiet : Quiet (actions.foldl step start))
    (last : (actions.foldl step start).history.getLast? = some (.swapped call)) :
    Run step (fun _ _ => True) start (actions.foldl step start) ∧
      ¬ NoLostWakeup (actions.foldl step start) := by
  refine ⟨.of_list step start actions, ?_⟩
  intro kept
  exact not_followed_of_last last (kept quiet).1

def Loses (actions : List Action) : Prop :=
  Run step (fun _ _ => True) start (actions.foldl step start) ∧
    ¬ NoLostWakeup (actions.foldl step start)

/-- A wake-up is lost without any storage error, and with one. -/
theorem wakeups_are_lost : Loses lateMark ∧ Loses failedPass ∧ Loses crossedLoops := by
  refine ⟨lost_of_last ?_ rfl, lost_of_last ?_ rfl, lost_of_last ?_ rfl⟩
  all_goals
    intro call
    rcases call with _ | _ | _ | call <;>
      simp [lateMark, failedPass, crossedLoops, step, swapsIn, startsPass, endsPass, releases,
        swapsMark, swapsAgain, storesMark, releasesFailed, setCall, start, update]

end PulsarLite.Broker.MergeTrigger
