import PulsarLite.Library.Grouping

/-!
# The fan-out of a non-persistent topic

The worker of a topic takes its jobs in batches, and hands each subscription the
entries of a batch in one call. A subscription is known by its identity, and the
snapshots of the jobs may differ.
-/

namespace PulsarLite.Broker.Fanout

open Library Groups List

variable {σ ε δ : Type}

structure NonPersistentPublish (σ ε : Type) where
  entry : ε
  subscriptions : List σ

structure NonPersistentFanoutJob (σ ε δ : Type) extends NonPersistentPublish σ ε where
  done : Option δ

inductive Event (σ ε δ : Type)
  | sendNonPersistentEntries (subscription : σ) (entries : List ε)
  | done (sender : δ)

def Event.passed : Event σ ε δ → List (σ × ε)
  | .sendNonPersistentEntries subscription entries => entries.map (subscription, ·)
  | .done _ => []

def Event.sender : Event σ ε δ → Option δ
  | .sendNonPersistentEntries _ _ => none
  | .done sender => some sender

def dispatchSequential (job : NonPersistentFanoutJob σ ε δ) : List (Event σ ε δ) :=
  job.subscriptions.map fun subscription => .sendNonPersistentEntries subscription [job.entry]

variable [DecidableEq σ] (jobs : List (NonPersistentFanoutJob σ ε δ))
  (batches : List (List (NonPersistentFanoutJob σ ε δ))) (subscription : σ)

/-- A subscription's group is found by its identity, or opened behind the others. -/
def groupsOf : Groups (σ × ε) σ :=
  ofList Prod.fst (jobs.flatMap fun job => job.subscriptions.map (·, job.entry))

def dispatchGroups : List (Event σ ε δ) :=
  (groupsOf jobs).order.map fun subscription =>
    .sendNonPersistentEntries subscription (((groupsOf jobs).members subscription).map Prod.snd)

def dones : List (Event σ ε δ) :=
  (jobs.filterMap NonPersistentFanoutJob.done).map .done

def dispatchFanoutJobs : List (Event σ ε δ) :=
  dispatchGroups jobs ++ dones jobs

def worker : List (Event σ ε δ) :=
  batches.flatMap dispatchFanoutJobs

/-- The entries passed to a subscription, in the order of the calls. -/
def entriesTo (events : List (Event σ ε δ)) : List ε :=
  (withKey Prod.fst subscription (events.flatMap Event.passed)).map Prod.snd

theorem entries_to_append (left right : List (Event σ ε δ)) :
    entriesTo subscription (left ++ right) =
      entriesTo subscription left ++ entriesTo subscription right := by
  simp [entriesTo, withKey]

theorem entries_to_dones : entriesTo subscription (dones jobs) = [] := by
  simp [entriesTo, dones, withKey, List.flatMap_map, Event.passed]

theorem passed_groups : (dispatchGroups jobs).flatMap Event.passed =
    (groupsOf jobs).order.flatMap (groupsOf jobs).members := by
  rw [dispatchGroups, List.flatMap_map]
  congr 1
  funext subscription
  simp only [Event.passed, map_map]
  refine (map_congr_left fun pair member => ?_).trans (map_id _)
  rw [groupsOf, members_of_list, withKey, mem_filter, decide_eq_true_iff] at member
  exact Prod.ext member.2.symm rfl

theorem entries_to_groups : entriesTo subscription (dispatchGroups jobs) =
    entriesTo subscription (jobs.flatMap dispatchSequential) := by
  rw [entriesTo, passed_groups, groupsOf, with_key_groups, entriesTo]
  congr 2
  simp [dispatchSequential, flatMap_assoc, Event.passed, map_eq_flatMap]

theorem entries_to_worker : entriesTo subscription (worker batches) =
    entriesTo subscription (batches.flatten.flatMap dispatchSequential) := by
  induction batches with
  | nil => rfl
  | cons batch batches ih =>
    rw [worker, flatMap_cons, dispatchFanoutJobs, entries_to_append, entries_to_append,
      entries_to_dones, append_nil, entries_to_groups, flatten_cons, flatMap_append,
      entries_to_append]
    exact congrArg _ ih

theorem senders_worker : (worker batches).filterMap Event.sender =
    batches.flatten.filterMap NonPersistentFanoutJob.done := by
  induction batches with
  | nil => rfl
  | cons batch batches ih =>
    have calls : (dispatchGroups batch).filterMap Event.sender = [] := by
      simp [dispatchGroups, Event.sender]
    have fires : (dones batch).filterMap Event.sender =
        batch.filterMap NonPersistentFanoutJob.done := by
      simp [dones, filterMap_map, Function.comp_def, Event.sender]
    rw [worker, flatMap_cons, dispatchFanoutJobs, filterMap_append, filterMap_append,
      calls, fires, flatten_cons, filterMap_append]
    exact congrArg _ ih

/-- However the jobs are cut into batches, a subscription gets what it gets from the
jobs one by one. Every `done` fires once, in the order of the jobs, and by then all
entries of the jobs up to its batch have been passed on. -/
theorem fanout_batching_transparent :
    (∀ subscription, entriesTo subscription (worker batches) =
      entriesTo subscription (batches.flatten.flatMap dispatchSequential)) ∧
    (worker batches).filterMap Event.sender =
      batches.flatten.filterMap NonPersistentFanoutJob.done ∧
    ∀ before batch after, batches = before ++ batch :: after → ∃ earlier,
      worker batches = earlier ++ dones batch ++ worker after ∧
      ∀ subscription, entriesTo subscription earlier =
        entriesTo subscription ((before.flatten ++ batch).flatMap dispatchSequential) := by
  refine ⟨entries_to_worker batches, senders_worker batches, ?_⟩
  rintro before batch after rfl
  refine ⟨worker before ++ dispatchGroups batch, ?_, fun subscription => ?_⟩
  · simp [worker, dispatchFanoutJobs]
  · rw [entries_to_append, entries_to_worker, entries_to_groups, flatMap_append, entries_to_append]

end PulsarLite.Broker.Fanout
