import PulsarLite.Library.Grouping
import PulsarLite.Storage.Store

/-!
# The write queue

All publish requests go through one queue with one worker. The worker takes the
requests off the queue in batches, splits each batch into the groups of its
ledgers, appends each group as a whole, and completes every request of the group
with the outcome.
-/

namespace PulsarLite.Storage

open Library Groups List

structure WriteReq extends Item where
  topic : Text
  framed : toItem.Framed
deriving DecidableEq

namespace WriteQueue

open RocksDbManagedLedgerStorage RocksDBManagedLedger

def maxBatch : Nat := 64

structure GroupFaults where
  opening : OpenFaults
  append : AppendFaults

def GroupFaults.none : GroupFaults where
  opening := .none
  append := .none

/-- What the worker takes off the queue at a time, with the faults that its
groups are going to meet. -/
structure Batch where
  reqs : List WriteReq
  faults : Text → GroupFaults
  nonempty : reqs ≠ []
  atMost : reqs.length ≤ maxBatch

structure Group where
  name : Text
  reqs : List WriteReq
  faults : GroupFaults

def ledgerName (req : WriteReq) : Text := Keys.managedLedgerName req.topic

def Batch.groups (batch : Batch) : List Group :=
  let groups := ofList ledgerName batch.reqs
  groups.order.map fun name => {
    name := name
    reqs := groups.members name
    faults := batch.faults name }

abbrev Completion := WriteReq × Except String MessageId

structure QueueState where
  storage : RocksDbManagedLedgerStorage
  completions : List Completion

def completeErr (reqs : List WriteReq) (error : String) : List Completion :=
  reqs.map fun req => (req, .error error)

def completeOk (reqs : List WriteReq) (positions : List ManagedLedgerPosition) : List Completion :=
  (reqs.zip positions).map fun pair => (pair.1, .ok pair.2.toMessageId)

variable (state : QueueState)

/-- The worker's own cache has the ledgers of the factory's cache, so one cache
stands for both. -/
def processGroup (group : Group) : QueueState :=
  match getOrOpenLedger group.faults.opening group.name state.storage with
  | (.error error, storage) => {
      storage := storage
      completions := state.completions ++ completeErr group.reqs error }
  | (.ok ledger, storage) =>
    match appendItems group.faults.append group.name ledger (group.reqs.map WriteReq.toItem)
        storage with
    | (.ok positions, storage) => {
        storage := storage
        completions := state.completions ++ completeOk group.reqs positions }
    | (.error error, storage) => {
        storage := storage
        completions := state.completions ++ completeErr group.reqs error }

def processBatch (batch : Batch) : QueueState :=
  batch.groups.foldl processGroup state

def workerLoop (batches : List Batch) : QueueState :=
  batches.foldl processBatch state

/-- The three ways in which a group ends: its ledger does not open, or its append
fails, or its append goes through. -/
inductive GroupOutcome (state : QueueState) (group : Group) : QueueState → Prop
  | notOpened (error storage)
      (opening : getOrOpenLedger group.faults.opening group.name state.storage =
        (.error error, storage)) :
      GroupOutcome state group {
        storage := storage
        completions := state.completions ++ completeErr group.reqs error }
  | notAppended (ledger error opened storage)
      (opening : getOrOpenLedger group.faults.opening group.name state.storage =
        (.ok ledger, opened))
      (append : appendItems group.faults.append group.name ledger
        (group.reqs.map WriteReq.toItem) opened = (.error error, storage)) :
      GroupOutcome state group {
        storage := storage
        completions := state.completions ++ completeErr group.reqs error }
  | appended (ledger positions opened storage)
      (opening : getOrOpenLedger group.faults.opening group.name state.storage =
        (.ok ledger, opened))
      (append : appendItems group.faults.append group.name ledger
        (group.reqs.map WriteReq.toItem) opened = (.ok positions, storage)) :
      GroupOutcome state group {
        storage := storage
        completions := state.completions ++ completeOk group.reqs positions }

theorem process_group_outcome (state group) :
    GroupOutcome state group (processGroup state group) := by
  unfold processGroup
  cases opening : getOrOpenLedger group.faults.opening group.name state.storage with
  | mk result opened =>
    cases result with
    | error error => exact .notOpened error opened opening
    | ok ledger =>
      simp only
      cases append : appendItems group.faults.append group.name ledger
          (group.reqs.map WriteReq.toItem) opened with
      | mk result storage =>
        cases result with
        | error error => exact .notAppended ledger error opened storage opening append
        | ok positions => exact .appended ledger positions opened storage opening append

structure Group.Formed (group : Group) : Prop where
  named : ∀ req ∈ group.reqs, ledgerName req = group.name
  nonempty : group.reqs ≠ []

theorem worker_loop_eq (state batches) :
    workerLoop state batches = (batches.flatMap Batch.groups).foldl processGroup state := by
  rw [foldl_flatMap]
  rfl

theorem formed_of_mem_groups {batch : Batch} {group : Group} (member : group ∈ batch.groups) :
    group.Formed := by
  obtain ⟨name, inOrder, rfl⟩ := mem_map.mp member
  have reqs : (ofList ledgerName batch.reqs).members name =
      withKey ledgerName name batch.reqs := members_of_list _ _ _
  constructor
  · intro req found
    simp only [reqs] at found ⊢
    exact of_decide_eq_true (mem_filter.mp found).2
  · obtain ⟨req, found, same⟩ := (mem_order_of_list _ _ _).mp inOrder
    simp only [reqs]
    apply ne_nil_of_mem
    exact mem_filter.mpr ⟨found, decide_eq_true same⟩

theorem with_key_batches (batches : List Batch) (name : Text) :
    withKey ledgerName name ((batches.flatMap Batch.groups).flatMap Group.reqs) =
      withKey ledgerName name (batches.flatMap Batch.reqs) := by
  induction batches with
  | nil => rfl
  | cons batch batches ih =>
    simp only [flatMap_cons, flatMap_append, withKey, filter_append]
    have one := with_key_groups ledgerName batch.reqs name
    have flat : batch.groups.flatMap Group.reqs = (ofList ledgerName batch.reqs).order.flatMap
          (ofList ledgerName batch.reqs).members := by
      simp [Batch.groups, flatMap_map]
    rw [← flat] at one
    exact congrArg₂ (· ++ ·) one ih

end WriteQueue

end PulsarLite.Storage
