import PulsarLite.Storage.EntryLog

/-!
# Durability of the entry log

Any sequence of write batches, in which opening the next file may fail and
`write_all` may fail after any part of its buffer. A batch that is answered with
indices can be read back from then on if the writer knew its file when the batch
came, or the batch rotated to a new file. A write that failed half way, or a
rotation whose file could not be opened, leaves a writer behind that does not.
-/

namespace PulsarLite.Storage.EntryLogDurability

open Library

variable {store : EntryLogStore} {faults : WriteFaults} {batch : List EntryToAppend}
  {index : EntryIndex} {entry : EntryToAppend}

open EntryLogStore

structure WriteCall where
  faults : WriteFaults
  batch : List EntryToAppend

section

variable (store : EntryLogStore)

def call (write : WriteCall) : EntryLogStore :=
  (writeBatch write.faults store write.batch).2

def afterCalls (writes : List WriteCall) : EntryLogStore :=
  writes.foldl call store

/-- The handle is on the active file, and the offset is the length of that file. -/
def KnowsFile : Prop :=
  store.file = store.activeFileId ∧
    ∃ bytes, store.files.contents store.activeFileId = some bytes ∧
      bytes.length = store.activeOffset

def Ready (batch : List EntryToAppend) : Prop :=
  store.rotates batch = true ∨ KnowsFile store

def Newest : Prop :=
  ∀ id, store.activeFileId < id → store.files.contents id = none

end

section

variable (newest : Newest store)
include newest

theorem Newest.append (file offset : Nat) (bytes : Bytes) :
    Newest { store with files := store.files.append file bytes, activeOffset := offset } := by
  intro id later
  rw [Files.contents_append, newest id later]
  rfl

theorem newest_rotate (faults : WriteFaults) : Newest (rotate faults store).2 := by
  unfold rotate
  cases faults.openError with
  | some error =>
    intro id later
    exact newest id (by simp only at later; omega)
  | none =>
    intro id later
    simp only at later ⊢
    rw [Files.contents_create, if_neg (by omega)]
    exact newest id (by omega)

theorem newest_write_entries (faults batch) : Newest (writeEntries faults store batch).2 := by
  unfold writeEntries
  cases faults.writeError with
  | none => exact newest.append _ _ _
  | some failure => exact newest.append _ store.activeOffset _

theorem newest_call (write : WriteCall) : Newest (call store write) := by
  unfold call writeBatch
  split_ifs
  · exact newest
  · have rotated := newest_rotate newest write.faults
    generalize rotate write.faults store = outcome at rotated
    obtain ⟨failure, next⟩ := outcome
    cases failure with
    | none => exact newest_write_entries rotated write.faults write.batch
    | some error => exact rotated
  · exact newest_write_entries newest write.faults write.batch

theorem newest_after_calls (writes) : Newest (afterCalls store writes) := by
  induction writes generalizing store with
  | nil => exact newest
  | cons write writes ih => exact ih (newest_call newest write)

end

theorem after_calls_extends (store writes) :
    Files.Extends store.files (afterCalls store writes).files := by
  induction writes generalizing store with
  | nil => exact .refl _
  | cons write writes ih =>
    exact (write_batch_extends write.faults store write.batch).trans (ih (call store write))

theorem written_holds (knows : KnowsFile store)
    (returned : (.ok index, entry) ∈ (writeEntries faults store batch).1.zip batch) :
    Holds (writeEntries faults store batch).2 index entry := by
  obtain ⟨handle, bytes, found, length⟩ := knows
  cases failure : faults.writeError with
  | some pair =>
    simp only [writeEntries, failure] at returned
    obtain ⟨_, _, impossible⟩ := List.mem_map.mp (List.of_mem_zip returned).1
    cases impossible
  | none =>
    have each := write_entries_holds handle found length failure batch
    simp only [writeEntries, failure] at returned each ⊢
    rw [List.zip_map_left] at returned
    obtain ⟨pair, member, same⟩ := List.mem_map.mp returned
    cases same
    exact (List.forall₂_iff_zip.mp each).2 member

theorem write_batch_holds (newest : Newest store) (ready : Ready store batch)
    (returned : (.ok index, entry) ∈ (writeBatch faults store batch).1.zip batch) :
    Holds (writeBatch faults store batch).2 index entry := by
  unfold writeBatch at returned ⊢
  split_ifs at returned ⊢ with empty turns
  · simp at returned
  · cases rotated : rotate faults store with
    | mk failure next =>
      simp only [rotated] at returned ⊢
      cases failure with
      | none =>
        have aligned := aligned_rotate newest rotated
        exact written_holds ⟨aligned.handle, aligned.length⟩ returned
      | some error =>
        obtain ⟨_, _, impossible⟩ := List.mem_map.mp (List.of_mem_zip returned).1
        cases impossible
  · exact written_holds (ready.resolve_left turns) returned

/-- Whatever failed before and whatever fails later, an index that was returned
by a batch the writer was ready for is read back as the entry that was appended. -/
theorem returned_indices_read_back (files : Files) (logSizeLimit : Nat)
    (before later : List WriteCall) (write : WriteCall)
    (ready : Ready (afterCalls (openWithLimit files logSizeLimit) before) write.batch)
    (index : EntryIndex) (entry : EntryToAppend) (inRange : InRange entry)
    (returned : (.ok index, entry) ∈ (writeBatch write.faults
      (afterCalls (openWithLimit files logSizeLimit) before) write.batch).1.zip write.batch) :
    (afterCalls (openWithLimit files logSizeLimit) (before ++ write :: later)).read index = .ok {
      partition := entry.partition
      metadata := entry.metadata
      payload := entry.payload } := by
  have newest : Newest (afterCalls (openWithLimit files logSizeLimit) before) :=
    newest_after_calls (aligned_open files logSizeLimit).last before
  have holds := write_batch_holds newest ready returned
  apply read_holds inRange
  apply holds.extends
  unfold afterCalls
  rw [List.foldl_append, List.foldl_cons]
  exact after_calls_extends _ later

def sampleEntry : EntryToAppend where
  ledgerId := 7
  entryId := 1
  partition := -1
  metadata := [1]
  payload := [2, 3]

def sampleRecord : EntryRecord where
  partition := -1
  metadata := [1]
  payload := [2, 3]

theorem sample_in_range : InRange sampleEntry := by
  constructor <;> decide

def quiet : WriteCall where
  faults := .none
  batch := [sampleEntry]

def torn : WriteCall where
  faults := { openError := none, writeError := some (1, "disk full") }
  batch := [sampleEntry]

def unopened : WriteCall where
  faults := { openError := some "too many open files", writeError := none }
  batch := [sampleEntry]

/-- The second batch goes to a new file, and a third one fails half way. -/
theorem returned_indices_read_back_rotated :
    (afterCalls (openWithLimit [] 60) [quiet, quiet, torn]).read (indexAt 1 0 sampleEntry) =
      .ok sampleRecord :=
  returned_indices_read_back [] 60 [quiet] [torn] quiet (by unfold Ready; left; decide)
    (indexAt 1 0 sampleEntry) sampleEntry sample_in_range (by decide)

/-- After a write that failed half way, the next batch is answered with an index
one byte before its entry, where the header claims more bytes than there are.
After a rotation that failed to open its file, it is answered with an index into a
file that does not exist. -/
theorem returned_index_is_unreadable :
    (writeBatch WriteFaults.none (afterCalls (openWithLimit [] 1000) [torn]) [sampleEntry]).1 =
      [.ok (indexAt 0 0 sampleEntry)] ∧
    (afterCalls (openWithLimit [] 1000) [torn, quiet]).read (indexAt 0 0 sampleEntry) =
      .error .io ∧
    (writeBatch WriteFaults.none (afterCalls (openWithLimit [] 60) [quiet, unopened])
      [sampleEntry]).1 = [.ok (indexAt 1 0 sampleEntry)] ∧
    (afterCalls (openWithLimit [] 60) [quiet, unopened, quiet]).read (indexAt 1 0 sampleEntry) =
      .error .io := by
  decide

end PulsarLite.Storage.EntryLogDurability
