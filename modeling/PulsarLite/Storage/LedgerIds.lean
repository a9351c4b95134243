import PulsarLite.Library.Runs
import PulsarLite.Storage.Opening

/-!
# Handing out ledger ids

One counter in RocksDB numbers the ledgers of all topics. A thread takes an id by
reading the counter and writing it back one larger, and these are two steps. The
threads that open new topics do it under the mutex of the factory's cache. The
worker of the write queue rolls ledgers over without it, so its two steps may lie
between the two steps of an opener, or around them.
-/

namespace PulsarLite.Storage.LedgerIds

open Library List Keys Option Function
open Db (empty)

variable {thread count : Nat} {config : ManagedLedgerConfig}

open RocksDBManagedLedger StoredManagedLedgerInfo

inductive Opener
  | idle
  | locked (name : Text)
  | counted (name : Text) (next : Nat)
  | allocated (name : Text) (ledgerId : Nat)

/-- The worker in `add_entries_with_partition_and_metadata`. Its database is the
one of the system, not the one the assignment was started with. -/
inductive Worker
  | idle
  | assigning (ledger : RocksDBManagedLedger) (current : Assignment) (items : List Item)
  | counted (ledger : RocksDBManagedLedger) (current : Assignment) (items : List Item)
      (next : Nat)

/-- `handed` records the ids given out and the ledger each was given to, and
`written` the entries committed and the ledger that wrote them. -/
structure System where
  db : Db
  config : ManagedLedgerConfig
  ledgers : Text → Option RocksDBManagedLedger
  holder : Option Nat
  openers : Nat → Opener
  worker : Worker
  handed : List (Nat × Text)
  written : List (Text × ManagedLedgerPosition)

def Opener.held : Opener → Option Nat
  | .counted _ next => some next
  | _ => none

def Worker.held : Worker → Option Nat
  | .counted _ _ _ next => some next
  | _ => none

def start (db : Db) (config : ManagedLedgerConfig) : System where
  db := db
  config := config
  ledgers := fun _ => none
  holder := none
  openers := fun _ => .idle
  worker := .idle
  handed := []
  written := []

section

variable (sys : System) (thread : Nat)

def setOpener (opener : Opener) : System :=
  { sys with openers := update sys.openers thread opener }

def leave : System :=
  { setOpener sys thread .idle with holder := none }

def openerLocks (name : Text) : System :=
  match sys.openers thread, sys.holder with
  | .idle, none => { setOpener sys thread (.locked name) with holder := some thread }
  | _, _ => sys

/-- A topic that is open, or that the database has, is not a new one. -/
def openerGets : System :=
  match sys.openers thread with
  | .locked name =>
    match sys.ledgers name, sys.db (managedLedgerKey name), nextLedgerId sys.db with
    | none, none, .ok next => setOpener sys thread (.counted name next)
    | _, _, _ => leave sys thread
  | _ => sys

/-- The put of the counter, which hands out the value read. -/
def handOut (next : Nat) (name : Text) : System :=
  { sys with
    db := sys.db.put ledgerIdAllocatorKey (.nextLedgerId (next + 1))
    handed := sys.handed ++ [(next, name)] }

def openerPuts : System :=
  match sys.openers thread with
  | .counted name next => setOpener (handOut sys next name) thread (.allocated name next)
  | _ => sys

def newLedger (config : ManagedLedgerConfig) (name : Text) (ledgerId : Nat) :
    RocksDBManagedLedger where
  name := name
  maxEntriesPerLedger := configuredMax config
  info := .new ledgerId
  lac := none
  runtime := runtimeFromInfo (.new ledgerId)

def openerStores : System :=
  match sys.openers thread with
  | .allocated name ledgerId => { leave sys thread with
      db := sys.db.put (managedLedgerKey name)
        (.managedLedgerInfo (StoredManagedLedgerInfo.new ledgerId).encode)
      ledgers := update sys.ledgers name (some (newLedger sys.config name ledgerId)) }
  | _ => sys

def openerFails : System :=
  match sys.openers thread with
  | .idle => sys
  | _ => leave sys thread

def workerStarts (name : Text) (items : List Item) : System :=
  match sys.worker, sys.ledgers name with
  | .idle, some ledger =>
    if items.isEmpty then sys
    else { sys with worker := .assigning ledger (startAssignment ledger sys.db []) items }
  | _, _ => sys

def workerGets : System :=
  match sys.worker with
  | .assigning ledger current items =>
    if ledger.maxEntriesPerLedger ≤ current.curEntries then
      match nextLedgerId sys.db with
      | .ok next => { sys with worker := .counted ledger current items next }
      | .error _ => { sys with worker := .idle }
    else sys
  | _ => sys

def rollTo (next : Nat) (current : Assignment) : Assignment :=
  { current with
    nextInfo := current.nextInfo.rollOverCurrentLedger next
    curId := next
    curEntries := 0
    curSize := 0 }

def workerPuts : System :=
  match sys.worker with
  | .counted ledger current items next => { handOut sys next ledger.name with
      worker := .assigning ledger (rollTo next current) items }
  | _ => sys

def workerPlaces : System :=
  match sys.worker with
  | .assigning ledger current (item :: items) =>
    if ledger.maxEntriesPerLedger ≤ current.curEntries then sys
    else { sys with worker := .assigning ledger (placeItem current item) items }
  | _ => sys

/-- The write batch, with the indices the entry log has answered. -/
def workerCommits (indices : List EntryIndex) : System :=
  match sys.worker with
  | .assigning ledger current [] =>
    if ledger.maxEntriesPerLedger ≤ current.curEntries then sys
    else if indices.length ≠ current.positions.length then { sys with worker := .idle }
    else { sys with
      db := commit ledger.name { current with db := sys.db } indices
      ledgers := update sys.ledgers ledger.name (some (publish ledger current))
      worker := .idle
      written := sys.written ++ current.positions.map fun position => (ledger.name, position) }
  | _ => sys

def workerFails : System := { sys with worker := .idle }

inductive Action
  | openerLocks (thread : Nat) (name : Text)
  | openerGets (thread : Nat)
  | openerPuts (thread : Nat)
  | openerStores (thread : Nat)
  | openerFails (thread : Nat)
  | workerStarts (name : Text) (items : List Item)
  | workerGets
  | workerPuts
  | workerPlaces
  | workerCommits (indices : List EntryIndex)
  | workerFails

def step : Action → System
  | .openerLocks thread name => openerLocks sys thread name
  | .openerGets thread => openerGets sys thread
  | .openerPuts thread => openerPuts sys thread
  | .openerStores thread => openerStores sys thread
  | .openerFails thread => openerFails sys thread
  | .workerStarts name items => workerStarts sys name items
  | .workerGets => workerGets sys
  | .workerPuts => workerPuts sys
  | .workerPlaces => workerPlaces sys
  | .workerCommits indices => workerCommits sys indices
  | .workerFails => workerFails sys

/-- An opener does not read the counter while the worker is about to write it
back, and the worker does not while an opener is. -/
def Apart : Action → Prop
  | .openerGets _ => sys.worker.held = none
  | .workerGets => ∀ thread, (sys.openers thread).held = none
  | _ => True

end

variable {opener : Opener}

section

variable {next other : Nat}

/-- What a counter shared by threads that do not interfere keeps. -/
structure Distinct (sys : System) : Prop where
  serialised : ∀ thread, sys.openers thread ≠ .idle → sys.holder = some thread
  opener : ∀ thread next, (sys.openers thread).held = some next → nextLedgerId sys.db = .ok next
  worker : ∀ next, sys.worker.held = some next → nextLedgerId sys.db = .ok next
  apart : sys.worker.held = none ∨ ∀ thread, (sys.openers thread).held = none
  below : ∀ pair ∈ sys.handed, ∃ next, nextLedgerId sys.db = .ok next ∧ pair.1 < next
  distinct : (sys.handed.map Prod.fst).Nodup

theorem distinct_start (db : Db) (config) : Distinct (start db config) where
  serialised thread busy := absurd rfl busy
  opener thread next held := by cases held
  worker next held := by cases held
  apart := .inl rfl
  below pair member := by cases member
  distinct := nodup_nil

@[simp] theorem opener_held_idle : Opener.held .idle = none := rfl

@[simp] theorem opener_held_locked (name : Text) : Opener.held (.locked name) = none := rfl

@[simp] theorem opener_held_counted (name next) :
    Opener.held (.counted name next) = some next := rfl

@[simp] theorem opener_held_allocated (name ledgerId) :
    Opener.held (.allocated name ledgerId) = none := rfl

theorem ne_idle_of_held (held : opener.held = some next) :
    opener ≠ .idle := by
  intro idle
  rw [idle] at held
  cases held

variable {sys : System}

theorem Distinct.idle_of_ne (distinct : Distinct sys) (busy : sys.openers thread ≠ .idle)
    (different : other ≠ thread) : sys.openers other = .idle := by
  by_contra occupied
  have same := (distinct.serialised thread busy).symm.trans (distinct.serialised other occupied)
  exact different (some.inj same).symm

theorem Distinct.quiet {sys after : System} (distinct : Distinct sys)
    (serialised : ∀ thread, after.openers thread ≠ .idle → after.holder = some thread)
    (counter : nextLedgerId after.db = nextLedgerId sys.db) (handed : after.handed = sys.handed)
    (openers : ∀ thread next, (after.openers thread).held = some next →
      (sys.openers thread).held = some next)
    (worker : ∀ next, after.worker.held = some next → sys.worker.held = some next) :
    Distinct after where
  serialised := serialised
  opener thread next held := counter.trans (distinct.opener thread next (openers thread next held))
  worker next held := counter.trans (distinct.worker next (worker next held))
  apart := by
    obtain none | none := distinct.apart
    · left
      cases held : after.worker.held with
      | none => rfl
      | some next =>
        rw [worker next held] at none
        cases none
    right
    intro thread
    cases held : (after.openers thread).held with
    | none => rfl
    | some next =>
      have before := none thread
      rw [openers thread next held] at before
      cases before
  below pair member := by
    rw [counter]
    apply distinct.below
    rwa [handed] at member
  distinct := by
    rw [handed]
    exact distinct.distinct

variable (distinct : Distinct sys)
include distinct

theorem Distinct.worker_moves (worker : Worker) (ledgers : Text → Option RocksDBManagedLedger)
    (written : List (Text × ManagedLedgerPosition)) (held : worker.held = none) :
    Distinct { sys with ledgers := ledgers, worker := worker, written := written } := by
  apply distinct.quiet
  · exact distinct.serialised
  · rfl
  · rfl
  · intro thread next holds
    exact holds
  · intro next holds
    rw [held] at holds
    cases holds

theorem Distinct.opener_moves (busy : sys.openers thread ≠ .idle)
    (held : opener.held = none) : Distinct (setOpener sys thread opener) := by
  apply distinct.quiet
  · intro other occupied
    by_cases same : other = thread
    · subst same
      exact distinct.serialised other busy
    · apply distinct.serialised other
      simpa [setOpener, same] using occupied
  · rfl
  · rfl
  · intro other next holds
    by_cases same : other = thread
    · subst same
      simp [setOpener, held] at holds
    · simpa [setOpener, same] using holds
  · intro next holds
    exact holds

theorem Distinct.leave (thread : Nat) (busy : sys.openers thread ≠ .idle) :
    Distinct (leave sys thread) := by
  apply (distinct.opener_moves busy opener_held_idle).quiet
  · intro other occupied
    by_cases same : other = thread
    · subst same
      simp [LedgerIds.leave, setOpener] at occupied
    · exact absurd (distinct.idle_of_ne busy same) (by
        simpa [LedgerIds.leave, setOpener, same] using occupied)
  · rfl
  · rfl
  · intro other next holds
    exact holds
  · intro next holds
    exact holds

theorem Distinct.hand_out (name : Text) (current : nextLedgerId sys.db = .ok next)
    (released : ∀ thread, (sys.openers thread).held = none) (free : sys.worker.held = none) :
    Distinct (handOut sys next name) where
  serialised := distinct.serialised
  opener thread value held := by
    rw [show (handOut sys next name).openers thread = sys.openers thread from rfl,
      released thread] at held
    cases held
  worker value held := by
    rw [show (handOut sys next name).worker = sys.worker from rfl, free] at held
    cases held
  apart := .inl free
  below pair member := by
    refine ⟨next + 1, by simp [handOut, nextLedgerId], ?_⟩
    obtain old | new := mem_append.mp member
    · obtain ⟨value, found, below⟩ := distinct.below pair old
      rw [current] at found
      cases found
      omega
    · rw [mem_singleton.mp new]
      exact Nat.lt_succ_self next
  distinct := by
    unfold handOut
    rw [map_append, map_singleton]
    apply List.Nodup.append distinct.distinct (nodup_singleton next)
    intro value old new
    obtain ⟨pair, member, rfl⟩ := mem_map.mp old
    obtain ⟨other, found, below⟩ := distinct.below pair member
    rw [current] at found
    cases found
    rw [mem_singleton.mp new] at below
    exact absurd below (Nat.lt_irrefl _)

theorem distinct_opener_locks (thread name) : Distinct (openerLocks sys thread name) := by
  unfold openerLocks
  split
  · next idle free =>
      -- nobody is inside, so the mutex serialises the new holder alone
      have others (other : Nat) : sys.openers other = .idle := by
        by_contra occupied
        rw [distinct.serialised other occupied] at free
        cases free
      apply distinct.quiet
      · intro other occupied
        by_cases same : other = thread
        · rw [same]
        · exact absurd (others other) (by simpa [setOpener, same] using occupied)
      · rfl
      · rfl
      · intro other next holds
        by_cases same : other = thread
        · subst same
          simp [setOpener] at holds
        · simpa [setOpener, same] using holds
      · intro next holds
        exact holds
  · exact distinct

theorem distinct_opener_gets (apart : sys.worker.held = none) :
    Distinct (openerGets sys thread) := by
  unfold openerGets
  split
  · next name locked =>
      have busy : sys.openers thread ≠ .idle := by simp [locked]
      split
      · next next closed missing found =>
          have silent (other : Nat) (different : other ≠ thread) :
              sys.openers other = .idle := distinct.idle_of_ne busy different
          exact {
            serialised other occupied := by
              by_cases same : other = thread
              · subst same
                exact distinct.serialised other busy
              · exact absurd (silent other same) (by simpa [setOpener, same] using occupied)
            opener other value held := by
              by_cases same : other = thread
              · subst same
                simp only [setOpener, update_self, opener_held_counted, some.injEq] at held
                rw [← held]
                exact found
              · simp [setOpener, same, silent other same] at held
            worker := distinct.worker
            apart := .inl apart
            below := distinct.below
            distinct := distinct.distinct }
      · exact distinct.leave thread busy
  · exact distinct

theorem distinct_opener_puts (thread : Nat) : Distinct (openerPuts sys thread) := by
  unfold openerPuts
  split
  · next name next counted =>
      have held : (sys.openers thread).held = some next := by simp [counted]
      have busy := ne_idle_of_held held
      have moved := distinct.opener_moves busy (opener_held_allocated name next)
      apply moved.hand_out name (distinct.opener thread next held)
      · intro other
        by_cases same : other = thread
        · simp [setOpener, same]
        · simp [setOpener, same, distinct.idle_of_ne busy same]
      · obtain free | none := distinct.apart
        · exact free
        · rw [none thread] at held
          cases held
  · exact distinct

theorem distinct_opener_stores (thread : Nat) : Distinct (openerStores sys thread) := by
  unfold openerStores
  split
  · next name ledgerId allocated =>
      have left := distinct.leave thread (by simp [allocated])
      apply left.quiet
      · exact left.serialised
      · exact next_ledger_id_put_info _ _ _
      · rfl
      · intro other next holds
        exact holds
      · intro next holds
        exact holds
  · exact distinct

theorem distinct_opener_fails (thread : Nat) : Distinct (openerFails sys thread) := by
  unfold openerFails
  split
  · exact distinct
  · next busy => exact distinct.leave thread busy

theorem distinct_worker_starts (name items) : Distinct (workerStarts sys name items) := by
  unfold workerStarts
  split
  · split_ifs
    · exact distinct
    · exact distinct.worker_moves _ sys.ledgers sys.written rfl
  · exact distinct

theorem distinct_worker_gets (apart : ∀ thread, (sys.openers thread).held = none)
    : Distinct (workerGets sys) := by
  unfold workerGets
  split
  · next ledger current items assigning =>
      split_ifs
      · split
        · next next found =>
            exact {
              serialised := distinct.serialised
              opener := distinct.opener
              worker value held := by
                cases held
                exact found
              apart := .inr apart
              below := distinct.below
              distinct := distinct.distinct }
        · exact distinct.worker_moves .idle sys.ledgers sys.written rfl
      · exact distinct
  · exact distinct

theorem distinct_worker_puts : Distinct (workerPuts sys) := by
  unfold workerPuts
  split
  · next ledger current items next counted =>
      have held : sys.worker.held = some next := by simp [counted, Worker.held]
      have moved := distinct.worker_moves (.assigning ledger (rollTo next current) items)
        sys.ledgers sys.written rfl
      apply moved.hand_out ledger.name (distinct.worker next held)
      · obtain free | none := distinct.apart
        · rw [free] at held
          cases held
        · exact none
      · rfl
  · exact distinct

theorem distinct_worker_places : Distinct (workerPlaces sys) := by
  unfold workerPlaces
  split
  · split_ifs
    · exact distinct
    · exact distinct.worker_moves _ sys.ledgers sys.written rfl
  · exact distinct

theorem distinct_worker_commits (indices) : Distinct (workerCommits sys indices) := by
  unfold workerCommits
  split
  · next ledger current assigning =>
      split_ifs
      · exact distinct
      · exact distinct.worker_moves .idle sys.ledgers sys.written rfl
      have moved := distinct.worker_moves .idle
        (update sys.ledgers ledger.name (some (publish ledger current)))
        (sys.written ++ current.positions.map fun position => (ledger.name, position)) rfl
      apply moved.quiet
      · exact moved.serialised
      · exact next_ledger_id_commit _ _ _
      · rfl
      · intro other next holds
        exact holds
      · intro next holds
        exact holds
  · exact distinct

theorem distinct_step (action : Action) (apart : Apart sys action) : Distinct
    (step sys action) := by
  cases action with
  | openerLocks thread name => exact distinct_opener_locks distinct thread name
  | openerGets thread => exact distinct_opener_gets distinct apart
  | openerPuts thread => exact distinct_opener_puts distinct thread
  | openerStores thread => exact distinct_opener_stores distinct thread
  | openerFails thread => exact distinct_opener_fails distinct thread
  | workerStarts name items => exact distinct_worker_starts distinct name items
  | workerGets => exact distinct_worker_gets distinct apart
  | workerPuts => exact distinct_worker_puts distinct
  | workerPlaces => exact distinct_worker_places distinct
  | workerCommits indices => exact distinct_worker_commits distinct indices
  | workerFails => exact distinct.worker_moves .idle sys.ledgers sys.written rfl

end

section

variable {handed more : List (Nat × Text)} {name : Text}

def Worker.current : Worker → Option (RocksDBManagedLedger × Assignment)
  | .idle => none
  | .assigning ledger current _ => some (ledger, current)
  | .counted ledger current _ _ => some (ledger, current)

/-- Every ledger an append writes to was handed to the ledger `name`. -/
structure Writes (handed : List (Nat × Text)) (name : Text) (current : Assignment) : Prop where
  target : (current.curId, name) ∈ handed
  positions : ∀ position ∈ current.positions, (position.ledgerId, name) ∈ handed

/-- A ledger only uses ids that were handed to it, in every run. -/
structure Owned (sys : System) : Prop where
  named : ∀ name ledger, sys.ledgers name = some ledger → ledger.name = name
  cached : ∀ name ledger, sys.ledgers name = some ledger →
    (ledger.runtime.currentLedgerId, name) ∈ sys.handed
  allocated : ∀ thread name ledgerId, sys.openers thread = .allocated name ledgerId →
    (ledgerId, name) ∈ sys.handed
  working : ∀ ledger current, sys.worker.current = some (ledger, current) →
    Writes sys.handed ledger.name current
  written : ∀ pair ∈ sys.written, (pair.2.ledgerId, pair.1) ∈ sys.handed

theorem owned_start (db : Db) (config) : Owned (start db config) where
  named name ledger found := by cases found
  cached name ledger found := by cases found
  allocated thread name ledgerId found := by cases found
  working ledger current found := by cases found
  written pair member := by cases member

theorem Writes.mono {current : Assignment}
    (writes : Writes handed name current) (grown : handed ⊆ more) : Writes more name current where
  target := grown writes.target
  positions position member := grown (writes.positions position member)

variable {sys : System}

section

variable (owned : Owned sys)
include owned

theorem Owned.worker_moves {worker : Worker}
    (working : ∀ ledger current, worker.current = some (ledger, current) →
      Writes sys.handed ledger.name current) :
    Owned { sys with worker := worker } where
  named := owned.named
  cached := owned.cached
  allocated := owned.allocated
  working := working
  written := owned.written

theorem Owned.worker_idle : Owned { sys with worker := .idle } := by
  apply owned.worker_moves
  intro ledger current found
  cases found

theorem Owned.opener_moves (holder : Option Nat)
    (allocated : ∀ name ledgerId, opener = .allocated name ledgerId →
      (ledgerId, name) ∈ sys.handed) :
    Owned { setOpener sys thread opener with holder := holder } where
  named := owned.named
  cached := owned.cached
  allocated other name ledgerId found := by
    by_cases same : other = thread
    · subst same
      apply allocated
      simpa [setOpener] using found
    · apply owned.allocated other
      simpa [setOpener, same] using found
  working := owned.working
  written := owned.written

theorem Owned.leave (thread : Nat) : Owned (leave sys thread) := owned.opener_moves none (by simp)

theorem Owned.hand_out (next name) : Owned (handOut sys next name) where
  named := owned.named
  cached name ledger found := mem_append_left _ (owned.cached name ledger found)
  allocated thread name ledgerId found :=
    mem_append_left _ (owned.allocated thread name ledgerId found)
  working ledger current found := (owned.working ledger current found).mono (subset_append_left _ _)
  written pair member := mem_append_left _ (owned.written pair member)

theorem Owned.stores (db : Db) (ledger : RocksDBManagedLedger)
    (own : (ledger.runtime.currentLedgerId, ledger.name) ∈ sys.handed) :
    Owned { sys with
      db := db
      ledgers := update sys.ledgers ledger.name (some ledger) } where
  named name other found := by
    by_cases same : name = ledger.name
    · subst same
      simp only [update_self, some.injEq] at found
      rw [found]
    · exact owned.named name other (by simpa [same] using found)
  cached name other found := by
    by_cases same : name = ledger.name
    · subst same
      simp only [update_self, some.injEq] at found
      rw [← found]
      exact own
    · exact owned.cached name other (by simpa [same] using found)
  allocated := owned.allocated
  working := owned.working
  written := owned.written

end

theorem Writes.place {current : Assignment} (writes : Writes handed name current) (item : Item) :
    Writes handed name (placeItem current item) where
  target := writes.target
  positions position member := by
    obtain old | new := mem_append.mp member
    · exact writes.positions position old
    · rw [mem_singleton.mp new]
      exact writes.target

variable (owned : Owned sys)
include owned

theorem owned_opener_gets (thread : Nat) : Owned (openerGets sys thread) := by
  unfold openerGets
  split
  · split
    · exact owned.opener_moves sys.holder (by simp)
    · exact owned.leave thread
  · exact owned

theorem owned_opener_puts (thread : Nat) : Owned (openerPuts sys thread) := by
  unfold openerPuts
  split
  · next name next counted =>
      apply (owned.hand_out next name).opener_moves sys.holder
      intro other ledgerId same
      cases same
      exact mem_append_right _ (mem_singleton_self _)
  · exact owned

theorem owned_opener_stores (thread : Nat) : Owned (openerStores sys thread) := by
  unfold openerStores
  split
  · next name ledgerId allocated =>
      exact (owned.leave thread).stores _ (newLedger sys.config name ledgerId)
        (owned.allocated thread name ledgerId allocated)
  · exact owned

theorem owned_worker_starts (name items) : Owned (workerStarts sys name items) := by
  unfold workerStarts
  split
  · next ledger idle found =>
      split_ifs
      · exact owned
      apply owned.worker_moves
      intro other current same
      cases same
      have own := owned.cached name ledger found
      rw [← owned.named name ledger found] at own
      exact { target := own, positions := by simp [startAssignment] }
  · exact owned

theorem owned_worker_gets : Owned (workerGets sys) := by
  unfold workerGets
  split
  · next ledger current items assigning =>
      split_ifs
      · split
        · apply owned.worker_moves
          intro other same found
          cases found
          exact owned.working ledger current (by rw [assigning]; rfl)
        · exact owned.worker_idle
      · exact owned
  · exact owned

theorem owned_worker_puts : Owned (workerPuts sys) := by
  unfold workerPuts
  split
  · next ledger current items next counted =>
      apply (owned.hand_out next ledger.name).worker_moves
      intro other same found
      cases found
      have writes := owned.working ledger current (by rw [counted]; rfl)
      exact {
        target := mem_append_right _ (mem_singleton_self _)
        positions position member := mem_append_left _ (writes.positions position member) }
  · exact owned

theorem owned_worker_places : Owned (workerPlaces sys) := by
  unfold workerPlaces
  split
  · next ledger current item items assigning =>
      split_ifs
      · exact owned
      · apply owned.worker_moves
        intro other same found
        cases found
        exact (owned.working ledger current (by rw [assigning]; rfl)).place item
  · exact owned

theorem owned_worker_commits (indices) : Owned (workerCommits sys indices) := by
  unfold workerCommits
  split
  · next ledger current assigning =>
      have writes := owned.working ledger current (by rw [assigning]; rfl)
      split_ifs
      · exact owned
      · exact owned.worker_idle
      have stored := owned.worker_idle.stores
        (commit ledger.name { current with db := sys.db } indices) (publish ledger current)
        writes.target
      exact {
        named := stored.named
        cached := stored.cached
        allocated := stored.allocated
        working := stored.working
        written pair member := by
          obtain old | new := mem_append.mp member
          · exact owned.written pair old
          · obtain ⟨position, placed, rfl⟩ := mem_map.mp new
            exact writes.positions position placed }
  · exact owned

theorem owned_step (action : Action) : Owned (step sys action) := by
  cases action with
  | openerLocks thread name =>
    show Owned (openerLocks sys thread name)
    unfold openerLocks
    split
    · exact owned.opener_moves (some thread) (by simp)
    · exact owned
  | openerGets thread => exact owned_opener_gets owned thread
  | openerPuts thread => exact owned_opener_puts owned thread
  | openerStores thread => exact owned_opener_stores owned thread
  | openerFails thread =>
    show Owned (openerFails sys thread)
    unfold openerFails
    split
    · exact owned
    · exact owned.leave thread
  | workerStarts name items => exact owned_worker_starts owned name items
  | workerGets => exact owned_worker_gets owned
  | workerPuts => exact owned_worker_puts owned
  | workerPlaces => exact owned_worker_places owned
  | workerCommits indices => exact owned_worker_commits owned indices
  | workerFails => exact owned.worker_idle

end

/-- In every run in which the two kinds of threads keep apart, no id is handed
out twice, and no two ledgers write the same entry key. -/
theorem ledger_ids_are_unique (db : Db) (config : ManagedLedgerConfig) (sys : System)
    (run : Run step Apart (start db config) sys) :
    (sys.handed.map Prod.fst).Nodup ∧
      ∀ left ∈ sys.written, ∀ right ∈ sys.written,
        managedEntryKey left.2.ledgerId left.2.entryId =
          managedEntryKey right.2.ledgerId right.2.entryId → left.1 = right.1 := by
  have distinct := run.invariant (distinct_start db config)
    fun _ action holds apart => distinct_step holds action apart
  have owned := run.invariant (owned_start db config)
    fun _ action holds _ => owned_step holds action
  refine ⟨distinct.distinct, ?_⟩
  intro left leftWritten right rightWritten sameKey
  have sameId := (managed_entry_key_inj sameKey).1
  have leftOwn := owned.written left leftWritten
  have rightOwn := owned.written right rightWritten
  rw [← sameId] at rightOwn
  have same := inj_on_of_nodup_map distinct.distinct leftOwn rightOwn rfl
  exact congrArg Prod.snd same

def olderTopic : Text := ['a']

def newerTopic : Text := ['b']

def sampleMessage : Item where
  partition := 0
  metadata := [1]
  payload := [2]

def sampleIndex : EntryIndex where
  ledgerId := 0
  entryId := 0
  fileId := 0
  offset := 0
  len := 0
  checksum := 0
  partition := 0

def appendOne (name : Text) : List Action :=
  [.workerStarts name [sampleMessage], .workerPlaces, .workerCommits [sampleIndex]]

/-- The older topic is open with `count` entries in its current ledger, the newer
one is not known yet, and nobody is at work. -/
structure Filled (config : ManagedLedgerConfig) (sys : System) (count : Nat) : Prop where
  configured : sys.config = config
  free : sys.holder = none
  openers : ∀ thread, sys.openers thread = .idle
  worker : sys.worker = .idle
  older : ∃ ledger, sys.ledgers olderTopic = some ledger ∧ ledger.name = olderTopic ∧
    ledger.maxEntriesPerLedger = configuredMax config ∧
    ledger.runtime.currentLedgerEntries = count
  newer : sys.ledgers newerTopic = none
  missing : sys.db (managedLedgerKey newerTopic) = none
  counter : nextLedgerId sys.db = .ok 1

theorem newer_ne_older : newerTopic ≠ olderTopic := by decide

theorem filled_opened (config) :
    Filled config ([.openerLocks 0 olderTopic, .openerGets 0, .openerPuts 0,
      .openerStores 0].foldl step (start empty config)) 0 := by
  have keys : managedLedgerKey newerTopic ≠ managedLedgerKey olderTopic := by
    intro same
    exact newer_ne_older (managed_ledger_key_inj same)
  constructor
  · rfl
  · rfl
  · intro thread
    by_cases same : thread = 0
    · subst same
      rfl
    · simp [step, openerLocks, start, openerGets, openerPuts, openerStores, setOpener, leave,
        handOut, empty, nextLedgerId]
  · rfl
  · exact ⟨newLedger config olderTopic 0, rfl, rfl, rfl, rfl⟩
  · rfl
  · have other := Db.put_of_ne (ledger_key_ne_allocator_key newerTopic) empty (.nextLedgerId 1)
    have stored := Db.put_of_ne keys (empty.put ledgerIdAllocatorKey (.nextLedgerId 1))
      (.managedLedgerInfo (StoredManagedLedgerInfo.new 0).encode)
    exact stored.trans other
  · rfl

def oneMore (ledger : RocksDBManagedLedger) (db : Db) : Assignment :=
  placeItem (startAssignment ledger db []) sampleMessage

variable {sys : System}

theorem append_one (ledger) (idle : sys.worker = .idle)
    (found : sys.ledgers ledger.name = some ledger)
    (room : ledger.runtime.currentLedgerEntries + 1 < ledger.maxEntriesPerLedger) :
    (appendOne ledger.name).foldl step sys = { sys with
      db := commit ledger.name (oneMore ledger sys.db) [sampleIndex]
      ledgers := update sys.ledgers ledger.name (some (publish ledger (oneMore ledger sys.db)))
      written := sys.written ++ [(ledger.name, {
        ledgerId := ledger.runtime.currentLedgerId
        entryId := ledger.runtime.currentLedgerEntries
        partition := 0 })] } := by
  have before : ¬ ledger.maxEntriesPerLedger ≤ ledger.runtime.currentLedgerEntries := by omega
  have after : ¬ ledger.maxEntriesPerLedger ≤ ledger.runtime.currentLedgerEntries + 1 := by omega
  simp [appendOne, step, workerStarts, idle, found, workerPlaces, startAssignment, before,
    workerCommits, placeItem, after, oneMore, nextPlace, sampleMessage]

theorem filled_append (filled : Filled config sys count) (room : count + 1 < configuredMax config) :
    Filled config ((appendOne olderTopic).foldl step sys) (count + 1) := by
  obtain ⟨ledger, older, name, bound, entries⟩ := filled.older
  rw [← name, append_one ledger filled.worker (by rw [name, older]) (by omega), name]
  constructor
  · exact filled.configured
  · exact filled.free
  · exact filled.openers
  · exact filled.worker
  · have updated := update_self olderTopic
      (some (publish ledger (oneMore ledger sys.db))) sys.ledgers
    exact ⟨_, updated, name, bound, congrArg (· + 1) entries⟩
  · simpa [newer_ne_older] using filled.newer
  · have notLedger : managedLedgerKey newerTopic ≠ managedLedgerKey olderTopic := by
      intro same
      exact newer_ne_older (managed_ledger_key_inj same)
    have other : commit olderTopic (oneMore ledger sys.db) [sampleIndex]
        (managedLedgerKey newerTopic) = sys.db (managedLedgerKey newerTopic) :=
      commit_other notLedger fun position _ => ledger_key_ne_entry_key newerTopic _ _
    exact other.trans filled.missing
  · exact (next_ledger_id_commit _ _ _).trans filled.counter

theorem exists_filled (config count) (room : count < configuredMax config) :
    ∃ sys, Run step (fun _ _ => True) (start empty config) sys ∧ Filled config sys count := by
  induction count with
  | zero => exact ⟨_, .of_list step _ _, filled_opened config⟩
  | succ count ih =>
    obtain ⟨sys, run, filled⟩ := ih (by omega)
    exact ⟨_, run.trans (.of_list step sys _), filled_append filled room⟩

/-- The worker appends the entry that fills the ledger. The opener of a new topic
and the worker both read the counter before either writes it back. -/
def race : List Action :=
  [.workerStarts olderTopic [sampleMessage], .workerPlaces, .openerLocks 0 newerTopic,
    .openerGets 0, .workerGets, .openerPuts 0, .workerPuts, .openerStores 0,
    .workerCommits [sampleIndex]]

theorem race_hands_out_twice (filled : Filled config sys count)
    (last : configuredMax config = count + 1) :
    (race.foldl step sys).worker = .idle ∧
    (race.foldl step sys).handed = sys.handed ++ [(1, newerTopic), (1, olderTopic)] ∧
    (race.foldl step sys).ledgers newerTopic = some (newLedger config newerTopic 1) ∧
    ∃ ledger, (race.foldl step sys).ledgers olderTopic = some ledger ∧ ledger.name = olderTopic ∧
      ledger.maxEntriesPerLedger = configuredMax config ∧ ledger.runtime.currentLedgerId = 1 ∧
      ledger.runtime.currentLedgerEntries = 0 := by
  obtain ⟨ledger, older, name, bound, entries⟩ := filled.older
  have before : ¬ ledger.maxEntriesPerLedger ≤ ledger.runtime.currentLedgerEntries := by omega
  have full : ledger.maxEntriesPerLedger ≤ ledger.runtime.currentLedgerEntries + 1 := by omega
  have fresh : ledger.maxEntriesPerLedger ≠ 0 := by omega
  have assigning : [.workerStarts olderTopic [sampleMessage], .workerPlaces].foldl step sys =
      { sys with worker := .assigning ledger (oneMore ledger sys.db) [] } := by
    simp [step, workerStarts, filled.worker, older, workerPlaces, startAssignment, before, oneMore]
  have split : race = [.workerStarts olderTopic [sampleMessage], .workerPlaces] ++
      [.openerLocks 0 newerTopic, .openerGets 0, .workerGets, .openerPuts 0, .workerPuts,
        .openerStores 0, .workerCommits [sampleIndex]] := rfl
  rw [split, foldl_append, assigning]
  simp [step, openerLocks, filled.openers, filled.free, openerGets, setOpener, filled.newer,
    filled.missing, filled.counter, workerGets, full, openerPuts, handOut, workerPuts,
    openerStores, leave, workerCommits, oneMore, placeItem, startAssignment, rollTo, fresh, name,
    filled.configured, newer_ne_older, publish]
  exact bound

/-- In the broker's own configuration, one id is handed to two topics, and both
write the entry key of its first entry. -/
theorem ledger_id_handed_out_twice :
    ∃ sys, Run step (fun _ _ => True) (start .empty { maxEntriesPerLedger := none }) sys ∧
      ¬ (sys.handed.map Prod.fst).Nodup ∧
      ∃ left ∈ sys.written, ∃ right ∈ sys.written,
        managedEntryKey left.2.ledgerId left.2.entryId =
          managedEntryKey right.2.ledgerId right.2.entryId ∧ left.1 ≠ right.1 := by
  obtain ⟨sys, run, filled⟩ := exists_filled { maxEntriesPerLedger := none } 49999 (by decide)
  obtain ⟨idle, handed, newer, ledger, older, name, bound, id, entries⟩ :=
    race_hands_out_twice filled (by decide)
  generalize raced : race.foldl step sys = racedSys at idle handed newer older
  have large : ledger.maxEntriesPerLedger = 50000 := bound
  have first := append_one ledger idle (by rw [name, older]) (by rw [large, entries]; decide)
  generalize appended : (appendOne ledger.name).foldl step racedSys = appendedSys at first
  have stillNewer : appendedSys.ledgers newerTopic =
      some (newLedger { maxEntriesPerLedger := none } newerTopic 1) := by
    rw [first, name]
    simpa [newer_ne_older] using newer
  have second := append_one (newLedger { maxEntriesPerLedger := none } newerTopic 1)
    (by rw [first, idle]) stillNewer (by decide)
  have runs : Run step (fun _ _ => True) (start empty { maxEntriesPerLedger := none })
      ((appendOne newerTopic).foldl step appendedSys) := by
    rw [← appended, ← raced]
    exact ((run.trans (.of_list step _ race)).trans (.of_list step _ _)).trans (.of_list step _ _)
  refine ⟨_, runs, ?_, ?_⟩
  · rw [show newerTopic = (newLedger { maxEntriesPerLedger := none } newerTopic 1).name from rfl,
      second, first, handed]
    simp [nodup_append]
  rw [show newerTopic = (newLedger { maxEntriesPerLedger := none } newerTopic 1).name from rfl,
    second, first]
  refine ⟨_, mem_append_left _ (mem_append_right _ (mem_singleton_self _)),
    _, mem_append_right _ (mem_singleton_self _), ?_, ?_⟩
  · rw [id, entries]
    rfl
  · rw [name]
    exact newer_ne_older.symm

def smallConfig : ManagedLedgerConfig where
  maxEntriesPerLedger := some 2

/-- A topic is opened, and the worker fills its first ledger and rolls it over. -/
def rollOver : List Action :=
  [.openerLocks 0 olderTopic, .openerGets 0, .openerPuts 0, .openerStores 0,
    .workerStarts olderTopic [sampleMessage, sampleMessage], .workerPlaces, .workerPlaces,
    .workerGets, .workerPuts, .workerCommits [sampleIndex, sampleIndex]]

def rolledOver : System := rollOver.foldl step (start .empty smallConfig)

theorem run_rolled_over : Run step Apart (start empty smallConfig) rolledOver := by
  have apart thread : Opener.held (([.openerLocks 0 olderTopic, .openerGets 0, .openerPuts 0,
      .openerStores 0].foldl step (start empty smallConfig)).openers thread) = none := by
    exact congrArg Opener.held ((filled_opened smallConfig).openers thread)
  apply Run.of_permits
  exact ⟨trivial, rfl, trivial, trivial, trivial, trivial, trivial, apart, trivial, trivial,
    trivial⟩

theorem ledger_ids_are_unique_rolled :
    rolledOver.handed = [(0, olderTopic), (1, olderTopic)] ∧
      (rolledOver.handed.map Prod.fst).Nodup :=
  ⟨rfl, (ledger_ids_are_unique empty smallConfig rolledOver run_rolled_over).1⟩

end PulsarLite.Storage.LedgerIds
