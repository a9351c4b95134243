import PulsarLite.Library.Files
import PulsarLite.Storage.Metadata

/-!
# The entry log

Entries are written to numbered append-only files, each behind a fixed header,
and are read back through the index that the write returned. The writer keeps
the number and the length of the active file in memory, apart from the handle it
writes through. `WriteFaults` says which of its system calls fail.
-/

namespace PulsarLite.Storage

open Library List Files

variable {fileId offset : Nat}

structure EntryToAppend where
  ledgerId : Nat
  entryId : Nat
  partition : Int
  metadata : Bytes
  payload : Bytes
deriving DecidableEq

structure EntryIndex where
  ledgerId : Nat
  entryId : Nat
  fileId : Nat
  offset : Nat
  len : Nat
  checksum : Nat
  partition : Int
deriving DecidableEq

structure EntryRecord where
  partition : Int
  metadata : Bytes
  payload : Bytes
deriving DecidableEq

/-- The directory together with the state of its writer; `file` is the number of
the file behind the open handle. -/
structure EntryLogStore where
  files : Files
  logSizeLimit : Nat
  activeFileId : Nat
  activeOffset : Nat
  file : Nat
deriving DecidableEq

/-- The error of opening the next file, and the error of `write_all` with the
number of bytes it had appended by then. -/
structure WriteFaults where
  openError : Option String
  writeError : Option (Nat × String)
deriving DecidableEq

namespace WriteFaults

def none : WriteFaults where
  openError := .none
  writeError := .none

end WriteFaults

namespace EntryLogStore

variable {header bytes whole : Bytes}

def entryMagic : Nat := 0x504C4547

def entryVersionLegacy : Nat := 1

def entryVersion : Nat := 2

def entryHeaderLenLegacy : Nat := 40

def entryHeaderLen : Nat := 44

def defaultLogSizeLimit : Nat := 2 * 1024 * 1024 * 1024

def checksum (parts : List Bytes) : Nat :=
  parts.flatten.foldl (fun sum byte => (sum + byte.toNat) % u64Modulus) 0

/-- `WriteState::open`: a fresh file after every existing one. -/
def openWithLimit (files : Files) (logSizeLimit : Nat) : EntryLogStore where
  files := files.create files.nextId
  logSizeLimit := logSizeLimit
  activeFileId := files.nextId
  activeOffset := 0
  file := files.nextId

variable (entry : EntryToAppend)

def entryLen : Nat :=
  entryHeaderLen + entry.metadata.length + entry.payload.length

/-- The words of the header, by width and value. The two lengths are cast to
`u32`, which keeps their four low bytes. -/
def headerWords : List (Nat × Nat) :=
  [(4, entryMagic), (2, entryVersion), (2, entryHeaderLen), (8, entry.ledgerId),
    (8, entry.entryId), (4, wordOfInt 4 entry.partition), (4, entry.metadata.length),
    (4, entry.payload.length), (8, checksum [entry.metadata, entry.payload])]

def encodeEntry : Bytes :=
  encodeWords (headerWords entry) ++ entry.metadata ++ entry.payload

def indexAt (fileId offset : Nat) (entry : EntryToAppend) : EntryIndex where
  ledgerId := entry.ledgerId
  entryId := entry.entryId
  fileId := fileId
  offset := offset
  len := entryLen entry
  checksum := checksum [entry.metadata, entry.payload]
  partition := entry.partition

def pendingIndices (fileId : Nat) : Nat → List EntryToAppend → List EntryIndex
  | _, [] => []
  | cursor, entry :: rest =>
    indexAt fileId cursor entry :: pendingIndices fileId (cursor + entryLen entry) rest

def batchLen (batch : List EntryToAppend) : Nat := (batch.map entryLen).sum

def rotates (store : EntryLogStore) (batch : List EntryToAppend) : Bool :=
  decide (0 < store.activeOffset ∧ store.logSizeLimit < store.activeOffset + batchLen batch)

section

variable (faults : WriteFaults) (store : EntryLogStore)

/-- The number and the length change before the next file is opened, and keep
their new values if that fails, while the handle stays on the old file. -/
def rotate : Option String × EntryLogStore :=
  let fileId := store.activeFileId + 1
  match faults.openError with
  | some error => (some error, { store with activeFileId := fileId, activeOffset := 0 })
  | none => (none, { store with
      files := store.files.create fileId
      activeFileId := fileId
      activeOffset := 0
      file := fileId })

variable (batch : List EntryToAppend)

def writeEntries : List (Except String EntryIndex) × EntryLogStore :=
  let pending := pendingIndices store.activeFileId store.activeOffset batch
  let buf := batch.flatMap encodeEntry
  match faults.writeError with
  | none => (pending.map .ok, { store with
      files := store.files.append store.file buf
      activeOffset := store.activeOffset + batchLen batch })
  | some (written, error) =>
    (pending.map fun _ => .error ("write entrylog failed: " ++ error),
      { store with files := store.files.append store.file (buf.take written) })

def writeBatch : List (Except String EntryIndex) × EntryLogStore :=
  if batch.isEmpty then ([], store)
  else if store.rotates batch then
    match rotate faults store with
    | (some error, store) =>
      (batch.map fun _ => .error ("open entrylog failed: " ++ error), store)
    | (none, store) => writeEntries faults store batch
  else writeEntries faults store batch

def appendBatch (entries : List EntryToAppend) : Except String (List EntryIndex) × EntryLogStore :=
  if entries.isEmpty then (.ok [], store)
  else
    let written := writeBatch faults store entries
    (written.1.mapM id, written.2)

end

inductive ReadFailure
  | io
  | invalid (message : String)
  | panic
deriving DecidableEq

def readBytes (bytes : Bytes) (offset count : Nat) : Except ReadFailure Bytes :=
  match readExact bytes offset count with
  | some chunk => .ok chunk
  | none => .error .io

/-- The checks of the header, in the order of the source. Its slices up to byte
28 are taken before any check and panic on a shorter header. -/
def checkHeader (index : EntryIndex) (header : Bytes) : Except ReadFailure Unit :=
  let magic := wordAt header 0 4
  let version := wordAt header 4 2
  let headerLen := wordAt header 6 2
  if headerLen < 28 then .error .panic
  else if magic ≠ entryMagic then .error (.invalid "invalid entrylog magic")
  else if version ≠ entryVersion ∧ version ≠ entryVersionLegacy then
    .error (.invalid ("unsupported entrylog version " ++ toString version))
  else if version = entryVersionLegacy ∧ headerLen ≠ entryHeaderLenLegacy then
    .error (.invalid ("invalid entrylog header length " ++ toString headerLen))
  else if version = entryVersion ∧ headerLen ≠ entryHeaderLen then
    .error (.invalid ("invalid entrylog header length " ++ toString headerLen))
  else if wordAt header 8 8 ≠ index.ledgerId ∨ wordAt header 16 8 ≠ index.entryId then
    .error (.invalid "entrylog position does not match index")
  else .ok ()

/-- The metadata length, the payload length and the checksum of a header. -/
def bodyFields (header : Bytes) : Nat × Nat × Nat :=
  if wordAt header 4 2 = entryVersionLegacy then (0, wordAt header 28 4, wordAt header 32 8)
  else (wordAt header 28 4, wordAt header 32 4, wordAt header 36 8)

def readBody (index : EntryIndex) (bytes header : Bytes) : Except ReadFailure EntryRecord :=
  let headerLen := wordAt header 6 2
  let (metadataLen, payloadLen, expectedChecksum) := bodyFields header
  if headerLen + metadataLen + payloadLen ≠ index.len then
    .error (.invalid "entrylog length does not match index")
  else do
    let metadata ← readBytes bytes (index.offset + headerLen) metadataLen
    let payload ← readBytes bytes (index.offset + headerLen + metadataLen) payloadLen
    if checksum [metadata, payload] ≠ expectedChecksum ∨ expectedChecksum ≠ index.checksum then
      .error (.invalid "entrylog checksum mismatch")
    else
      .ok {
        partition := intOfWord 4 (wordAt header 24 4)
        metadata := metadata
        payload := payload }

def read (store : EntryLogStore) (index : EntryIndex) : Except ReadFailure EntryRecord :=
  match store.files.contents index.fileId with
  | none => .error .io
  | some bytes => do
      let headerPrefix ← readBytes bytes index.offset 8
      let headerLen := wordAt headerPrefix 6 2
      if headerLen < 8 then .error .panic
      else do
        let headerRest ← readBytes bytes (index.offset + 8) (headerLen - 8)
        let header := headerPrefix ++ headerRest
        checkHeader index header
        readBody index bytes header

/-- The bounds of the machine types. Ids and partition come from `u64` and `i32`
fields; a frame on the wire has a four-byte length, so no part of it is longer. -/
structure InRange (entry : EntryToAppend) : Prop where
  ledgerId : entry.ledgerId < u64Modulus
  entryId : entry.entryId < u64Modulus
  partitionLow : -(2 ^ 31) ≤ entry.partition
  partitionHigh : entry.partition < 2 ^ 31
  metadata : entry.metadata.length < 2 ^ 32
  payload : entry.payload.length < 2 ^ 32

theorem header_length (entry) : (encodeWords (headerWords entry)).length = 44 := by
  rfl

theorem encode_entry_length (entry) : (encodeEntry entry).length = entryLen entry := by
  simp only [encodeEntry, entryLen, length_append, header_length, entryHeaderLen]

theorem batch_bytes_length (batch) : (batch.flatMap encodeEntry).length = batchLen batch := by
  simp [batchLen, length_flatMap, encode_entry_length]

theorem checksum_eq (parts : List Bytes) :
    checksum parts = (parts.flatten.map UInt8.toNat).sum % u64Modulus := by
  have folded : ∀ (bytes : Bytes) (sum : Nat),
      bytes.foldl (fun sum byte => (sum + byte.toNat) % u64Modulus) (sum % u64Modulus) =
        (sum + (bytes.map UInt8.toNat).sum) % u64Modulus := by
    intro bytes
    induction bytes with
    | nil => simp
    | cons byte bytes ih =>
      intro sum
      rw [foldl_cons, Nat.mod_add_mod, ih, map_cons, sum_cons, Nat.add_assoc]
  rw [checksum, ← Nat.zero_mod u64Modulus, folded, Nat.zero_add]

theorem checksum_lt (parts : List Bytes) : checksum parts < u64Modulus := by
  rw [checksum_eq]
  exact Nat.mod_lt _ (by decide)

/-- The header of an entry as it is read back. -/
structure HeaderOf (entry : EntryToAppend) (header : Bytes) : Prop where
  magic : wordAt header 0 4 = entryMagic
  version : wordAt header 4 2 = entryVersion
  headerLen : wordAt header 6 2 = entryHeaderLen
  ledgerId : wordAt header 8 8 = entry.ledgerId
  entryId : wordAt header 16 8 = entry.entryId
  partition : wordAt header 24 4 = wordOfInt 4 entry.partition
  metadataLen : wordAt header 28 4 = entry.metadata.length
  payloadLen : wordAt header 32 4 = entry.payload.length
  checksum : wordAt header 36 8 = EntryLogStore.checksum [entry.metadata, entry.payload]

variable {entry : EntryToAppend}

theorem header_of_encoded (inRange : InRange entry) :
    HeaderOf entry (encodeWords (headerWords entry)) := by
  have word : u64Modulus = 256 ^ 8 := by decide
  have ledgerBound := inRange.ledgerId
  have entryBound := inRange.entryId
  have metadataBound := inRange.metadata
  have payloadBound := inRange.payload
  have sumBound := checksum_lt [entry.metadata, entry.payload]
  exact {
    magic := word_at_encode_words [] rfl rfl (by decide)
    version := word_at_encode_words ((headerWords entry).take 1) rfl rfl (by decide)
    headerLen := word_at_encode_words ((headerWords entry).take 2) rfl rfl (by decide)
    ledgerId := word_at_encode_words ((headerWords entry).take 3) rfl rfl ledgerBound
    entryId := word_at_encode_words ((headerWords entry).take 4) rfl rfl entryBound
    partition := word_at_encode_words ((headerWords entry).take 5) rfl rfl (word_of_int_lt 4 _)
    metadataLen := word_at_encode_words ((headerWords entry).take 6) rfl rfl (by omega)
    payloadLen := word_at_encode_words ((headerWords entry).take 7) rfl rfl (by omega)
    checksum := word_at_encode_words ((headerWords entry).take 8) rfl rfl sumBound }

theorem check_header_of (valid : HeaderOf entry header) :
    checkHeader (indexAt fileId offset entry) header = .ok () := by
  simp only [checkHeader, valid.magic, valid.version, valid.headerLen, valid.ledgerId,
    valid.entryId, indexAt]
  simp [entryHeaderLen, entryVersion, entryVersionLegacy]

theorem body_fields_of (valid : HeaderOf entry header) :
    bodyFields header = (entry.metadata.length, entry.payload.length,
      checksum [entry.metadata, entry.payload]) := by
  have current : ¬ entryVersion = entryVersionLegacy := by decide
  rw [bodyFields, valid.version, if_neg current, valid.metadataLen, valid.payloadLen,
    valid.checksum]

/-- The file behind an index holds the entry at the indexed offset. -/
def Holds (store : EntryLogStore) (index : EntryIndex) (entry : EntryToAppend) : Prop :=
  index = indexAt index.fileId index.offset entry ∧
    ∃ before after, store.files.contents index.fileId =
      some (before ++ encodeEntry entry ++ after) ∧ before.length = index.offset

variable {index : EntryIndex}

theorem Holds.extends {old new} (holds : Holds old index entry)
    (grown : Files.Extends old.files new.files) : Holds new index entry := by
  obtain ⟨described, before, after, found, position⟩ := holds
  obtain ⟨more, later⟩ := grown index.fileId _ found
  exact ⟨described, before, after ++ more, by rw [later, ← append_assoc], position⟩

theorem read_bytes_eq (bytes offset count) : readBytes bytes offset count =
      if count ≤ (bytes.drop offset).length then .ok ((bytes.drop offset).take count)
      else .error .io := by
  rw [readBytes, readExact, length_take]
  by_cases enough : count ≤ (bytes.drop offset).length
  · rw [if_pos (Nat.min_eq_left enough), if_pos enough]
  · rw [if_neg (by omega), if_neg enough]

theorem read_found {store : EntryLogStore} {tail : List UInt8}
    (found : store.files.contents index.fileId = some bytes)
    (rest : bytes.drop index.offset = tail) :
    store.read index =
      if tail.length < 8 then .error .io
      else if wordAt tail 6 2 < 8 then .error .panic
      else if tail.length < wordAt tail 6 2 then .error .io
      else (do
        checkHeader index (tail.take (wordAt tail 6 2))
        readBody index bytes (tail.take (wordAt tail 6 2))) := by
  simp only [read, found, read_bytes_eq, ← drop_drop, rest, length_drop]
  by_cases long : 8 ≤ tail.length
  · rw [if_pos long, if_neg (by omega)]
    simp only [bind, Except.bind, word_at_take (le_refl (6 + 2))]
    by_cases short : wordAt tail 6 2 < 8
    · rw [if_pos short, if_pos short]
    have header : tail.take 8 ++ (tail.drop 8).take (wordAt tail 6 2 - 8) =
        tail.take (wordAt tail 6 2) := by
      rw [← take_add, Nat.add_sub_cancel' (Nat.le_of_not_lt short)]
    rw [if_neg short, if_neg short]
    by_cases missing : tail.length < wordAt tail 6 2
    · rw [if_neg (by omega), if_pos missing]
    · rw [if_pos (by omega), if_neg missing]
      simp only [header]
  · rw [if_neg long, if_pos (by omega)]
    rfl

/-- The read of an entry from its own bytes, behind the checks of its header. -/
def encodedBody (index : EntryIndex) (encoded : Bytes) : Except ReadFailure EntryRecord :=
  let (metadataLen, payloadLen, expectedChecksum) := bodyFields (encoded.take 44)
  let metadata := (encoded.drop 44).take metadataLen
  let payload := (encoded.drop (44 + metadataLen)).take payloadLen
  if 44 + metadataLen + payloadLen ≠ index.len then
    .error (.invalid "entrylog length does not match index")
  else if checksum [metadata, payload] ≠ expectedChecksum ∨ expectedChecksum ≠ index.checksum then
    .error (.invalid "entrylog checksum mismatch")
  else
    .ok {
      partition := intOfWord 4 (wordAt (encoded.take 44) 24 4)
      metadata := metadata
      payload := payload }

/-- What is read through an index depends on the bytes of its entry only, also
where the fields of the entry are out of range. -/
theorem Holds.read_eq {store} (holds : Holds store index entry) :
    store.read index = (do
      checkHeader index ((encodeEntry entry).take 44)
      encodedBody index (encodeEntry entry)) := by
  obtain ⟨described, before, after, found, position⟩ := holds
  have size : (encodeEntry entry).length = index.len := by
    rw [encode_entry_length, described]
    rfl
  have long : 44 ≤ (encodeEntry entry).length := by
    rw [encode_entry_length, entryLen, entryHeaderLen]
    omega
  have headerLen : wordAt (encodeEntry entry) 6 2 = 44 := by
    rw [encodeEntry, append_assoc, word_at_append _ (by rw [header_length]; decide)]
    exact word_at_encode_words ((headerWords entry).take 2) rfl rfl (by decide)
  have piece (start count : Nat) (inside : start + count ≤ (encodeEntry entry).length) :
      readBytes (before ++ encodeEntry entry ++ after) (index.offset + start) count =
        .ok (((encodeEntry entry).drop start).take count) := by
    have enough : count ≤ ((encodeEntry entry).drop start).length := by
      rw [length_drop]
      omega
    rw [read_bytes_eq, append_assoc, ← position, drop_length_add_append,
      drop_append_of_le_length (by omega), take_append_of_le_length enough, if_pos]
    rw [length_append]
    omega
  have body : readBody index (before ++ encodeEntry entry ++ after) ((encodeEntry entry).take 44) =
      encodedBody index (encodeEntry entry) := by
    unfold readBody encodedBody
    rw [word_at_take (by decide), headerLen]
    generalize bodyFields ((encodeEntry entry).take 44) = fields
    obtain ⟨metadataLen, payloadLen, expectedChecksum⟩ := fields
    by_cases same : 44 + metadataLen + payloadLen = index.len
    · have metadata := piece 44 metadataLen (by omega)
      have payload := piece (44 + metadataLen) payloadLen (by omega)
      rw [← Nat.add_assoc] at payload
      simp only [same, ne_eq, not_true_eq_false, if_false, metadata, payload, bind, Except.bind]
    · simp only [ne_eq, same, not_false_eq_true, if_true]
  rw [read_found found (by rw [append_assoc, drop_left' position]),
    word_at_append after (by omega), headerLen, length_append, if_neg (by omega),
    if_neg (by decide), if_neg (by omega), take_append_of_le_length long, body]

theorem read_holds {store} (inRange : InRange entry) (holds : Holds store index entry) :
    store.read index = .ok {
      partition := entry.partition
      metadata := entry.metadata
      payload := entry.payload } := by
  have size := header_length entry
  have valid : HeaderOf entry ((encodeEntry entry).take 44) := by
    rw [encodeEntry, append_assoc, take_left' size]
    exact header_of_encoded inRange
  have metadata : ((encodeEntry entry).drop 44).take entry.metadata.length = entry.metadata := by
    rw [encodeEntry, append_assoc, drop_left' size, take_left]
  have payload : ((encodeEntry entry).drop (44 + entry.metadata.length)).take
      entry.payload.length = entry.payload := by
    rw [encodeEntry, drop_left' (by rw [length_append, size]), take_length]
  have signed : intOfWord 4 (wordOfInt 4 entry.partition) = entry.partition := by
    apply int_of_word_of_int
    · have := inRange.partitionLow
      omega
    · have := inRange.partitionHigh
      omega
  have len : index.len = 44 + entry.metadata.length + entry.payload.length := by
    rw [holds.1]; rfl
  have sums : index.checksum = checksum [entry.metadata, entry.payload] := by rw [holds.1]; rfl
  have checked : checkHeader index ((encodeEntry entry).take 44) = .ok () :=
    holds.1 ▸ check_header_of valid
  rw [holds.read_eq, checked]
  simp only [encodedBody, body_fields_of valid, metadata, payload, len, sums, valid.partition,
    signed, bind, Except.bind, ne_eq, not_true_eq_false, or_self, if_false]

/-- The writer knows its file: the handle is on the active file, whose length is
the offset, and no file has a larger number. -/
structure Aligned (store : EntryLogStore) : Prop where
  handle : store.file = store.activeFileId
  length : ∃ bytes, store.files.contents store.activeFileId = some bytes ∧
    bytes.length = store.activeOffset
  last : ∀ id, store.activeFileId < id → store.files.contents id = none

/-- Faults that leave no trace: no rotation fails to open its file, and no write
fails after its first byte. -/
structure WriteFaults.Traceless (faults : WriteFaults) : Prop where
  opens : faults.openError = .none
  writes : ∀ written error, faults.writeError = some (written, error) → written = 0

theorem aligned_open (files logSizeLimit) : Aligned (openWithLimit files logSizeLimit) where
  handle := rfl
  length := ⟨[], by simp [openWithLimit, contents_create, contents_next_id], rfl⟩
  last id later := by
    simp only [openWithLimit] at later ⊢
    rw [contents_create, if_neg (by omega)]
    cases found : files.contents id with
    | none => rfl
    | some bytes => exact absurd (lt_next_id found) (by omega)

theorem extends_open (files logSizeLimit) :
    Files.Extends files (openWithLimit files logSizeLimit).files :=
  extends_create files _

section

variable (faults : WriteFaults)
include faults

variable (store : EntryLogStore)
include store

theorem rotate_extends : Files.Extends store.files (rotate faults store).2.files := by
  unfold rotate
  cases faults.openError with
  | none => exact extends_create _ _
  | some error => exact .refl _

theorem write_entries_extends (batch) :
    Files.Extends store.files (writeEntries faults store batch).2.files := by
  unfold writeEntries
  cases faults.writeError with
  | none | some => exact extends_append _ _ _

theorem write_batch_extends (batch) :
    Files.Extends store.files (writeBatch faults store batch).2.files := by
  unfold writeBatch
  split_ifs
  · exact .refl _
  · have rotated := rotate_extends faults store
    generalize rotate faults store = outcome at rotated
    obtain ⟨failure, next⟩ := outcome
    cases failure with
    | none => exact rotated.trans (write_entries_extends faults next batch)
    | some error => exact rotated
  · exact write_entries_extends faults store batch

theorem append_batch_extends (entries) :
    Files.Extends store.files (appendBatch faults store entries).2.files := by
  unfold appendBatch
  split_ifs
  · exact .refl _
  · exact write_batch_extends faults store entries

end

variable {faults : WriteFaults}

theorem aligned_rotate {store next}
    (last : ∀ id, store.activeFileId < id → store.files.contents id = none)
    (rotated : rotate faults store = (none, next)) : Aligned next := by
  unfold rotate at rotated
  cases opening : faults.openError with
  | some error => simp [opening] at rotated
  | none =>
    simp only [opening, Prod.mk.injEq, true_and] at rotated
    subst rotated
    refine ⟨rfl, ⟨[], ?_, rfl⟩, ?_⟩
    · simp [contents_create, last (store.activeFileId + 1) (Nat.lt_succ_self _)]
    · intro id later
      simp only at later ⊢
      rw [contents_create, if_neg (by omega)]
      exact last id (by omega)

variable {store : EntryLogStore}

theorem holds_pending (found : store.files.contents fileId = some whole) (batch)
    (done after : Bytes) (layout : whole = done ++ batch.flatMap encodeEntry ++ after) :
    List.Forall₂ (Holds store) (pendingIndices fileId done.length batch) batch := by
  induction batch generalizing done with
  | nil => exact List.Forall₂.nil
  | cons entry batch ih =>
    refine List.Forall₂.cons ⟨rfl, done, batch.flatMap encodeEntry ++ after, ?_, rfl⟩ ?_
    · change store.files.contents fileId = _
      rw [found, layout]
      simp only [flatMap_cons, append_assoc]
    have longer : done.length + entryLen entry = (done ++ encodeEntry entry).length := by
      rw [length_append, encode_entry_length]
    rw [longer]
    apply ih
    rw [layout]
    simp only [flatMap_cons, append_assoc]

theorem map_ok_collect (indices) :
    (indices.map Except.ok).mapM id = (.ok indices : Except String (List EntryIndex)) := by
  induction indices with
  | nil => rfl
  | cons index indices ih =>
    rw [map_cons, mapM_cons, ih]
    rfl

theorem map_error_collect {α : Type} {values : List α} (nonempty : values ≠ []) (error : String) :
    (values.map fun _ => (.error error : Except String EntryIndex)).mapM id = .error error := by
  cases values with
  | nil => exact absurd rfl nonempty
  | cons value values => rfl

theorem pending_nonempty {batch} (nonempty : batch ≠ []) :
    pendingIndices fileId offset batch ≠ [] := by
  cases batch with
  | nil => exact absurd rfl nonempty
  | cons entry batch => simp [pendingIndices]

theorem write_entries_collect (faults store) {batch : List EntryToAppend} (nonempty : batch ≠ []) :
    (writeEntries faults store batch).1.mapM id =
      match faults.writeError with
      | none => .ok (pendingIndices store.activeFileId store.activeOffset batch)
      | some (_, error) => .error ("write entrylog failed: " ++ error) := by
  unfold writeEntries
  cases faults.writeError with
  | none => exact map_ok_collect _
  | some failure => exact map_error_collect (pending_nonempty nonempty) _

theorem aligned_append (aligned : Aligned store) (buf : Bytes) :
    Aligned { store with
      files := store.files.append store.file buf
      activeOffset := store.activeOffset + buf.length } := by
  obtain ⟨bytes, found, length⟩ := aligned.length
  refine ⟨aligned.handle, ⟨bytes ++ buf, ?_, ?_⟩, ?_⟩
  · rw [contents_append, found, aligned.handle]
    simp
  · rw [length_append, length]
  · intro id later
    rw [contents_append, aligned.last id later]
    rfl

theorem write_entries_aligned (aligned : Aligned store)
    (writes : ∀ written error, faults.writeError = some (written, error) → written = 0) (batch) :
    Aligned (writeEntries faults store batch).2 := by
  unfold writeEntries
  cases failure : faults.writeError with
  | none =>
    rw [← batch_bytes_length]
    exact aligned_append aligned _
  | some pair =>
    obtain ⟨written, error⟩ := pair
    cases writes written error failure
    exact aligned_append aligned []

theorem write_entries_holds (handle : store.file = store.activeFileId)
    (found : store.files.contents store.activeFileId = some bytes)
    (length : bytes.length = store.activeOffset) (succeeds : faults.writeError = none) (batch) :
    List.Forall₂ (Holds (writeEntries faults store batch).2)
      (pendingIndices store.activeFileId store.activeOffset batch) batch := by
  have contents : (writeEntries faults store batch).2.files.contents store.activeFileId =
      some (bytes ++ batch.flatMap encodeEntry) := by
    simp only [writeEntries, succeeds]
    rw [contents_append, found, handle]
    simp
  rw [← length]
  exact holds_pending contents batch bytes [] (by simp)

variable {entries : List EntryToAppend}

theorem append_batch_eq (faults store) (nonempty : entries ≠ []) :
    (∃ error next, store.rotates entries = true ∧ rotate faults store = (some error, next) ∧
      appendBatch faults store entries = (.error ("open entrylog failed: " ++ error), next)) ∨
    ∃ next, (next = store ∨ rotate faults store = (none, next)) ∧
      appendBatch faults store entries =
        ((writeEntries faults next entries).1.mapM id, (writeEntries faults next entries).2) := by
  have some : entries.isEmpty = false := by simpa using nonempty
  unfold appendBatch writeBatch
  simp only [some, Bool.false_eq_true, if_false]
  by_cases turns : store.rotates entries = true
  · simp only [turns, if_true]
    generalize rotate faults store = outcome
    obtain ⟨failure, next⟩ := outcome
    cases failure with
    | none => exact .inr ⟨next, .inr rfl, rfl⟩
    | some error =>
      refine .inl ⟨error, next, trivial, rfl, ?_⟩
      simp only [map_error_collect nonempty]
  · simp only [turns]
    exact .inr ⟨store, .inl rfl, rfl⟩

variable {indices : List EntryIndex}

section

variable (aligned : Aligned store)
include aligned

theorem append_batch_cases (nonempty : entries ≠ []) :
    (∃ error openError, faults.openError = some openError ∧
      (appendBatch faults store entries).1 = .error error) ∨
    ∃ next, Aligned next ∧ appendBatch faults store entries =
      ((writeEntries faults next entries).1.mapM id, (writeEntries faults next entries).2) := by
  rcases append_batch_eq faults store nonempty with
    ⟨error, next, _, failed, result⟩ | ⟨next, rfl | rotated, result⟩
  · left
    unfold rotate at failed
    cases opening : faults.openError with
    | none => simp [opening] at failed
    | some openError => exact ⟨_, openError, rfl, by rw [result]⟩
  · exact .inr ⟨next, aligned, result⟩
  · exact .inr ⟨next, aligned_rotate aligned.last rotated, result⟩

theorem append_batch_aligned (traceless : WriteFaults.Traceless faults)
    (entries) : Aligned (appendBatch faults store entries).2 := by
  by_cases empty : entries = []
  · simpa [appendBatch, empty] using aligned
  rcases append_batch_cases aligned empty with
    ⟨_, openError, opening, _⟩ | ⟨next, nextAligned, result⟩
  · rw [traceless.opens] at opening
    cases opening
  · rw [result]
    exact write_entries_aligned nextAligned traceless.writes entries

theorem append_batch_holds (answered : (appendBatch faults store entries).1 = .ok indices) :
    List.Forall₂ (Holds (appendBatch faults store entries).2) indices entries := by
  by_cases empty : entries = []
  · subst empty
    simp only [appendBatch, isEmpty_nil, if_true, Except.ok.injEq] at answered
    rw [← answered]
    exact List.Forall₂.nil
  rcases append_batch_cases aligned empty with
    ⟨error, _, _, failed⟩ | ⟨next, nextAligned, result⟩
  · rw [answered] at failed
    cases failed
  rw [result, write_entries_collect faults next empty] at answered
  rw [result]
  cases failure : faults.writeError with
  | some pair => simp [failure] at answered
  | none =>
    simp only [failure, Except.ok.injEq] at answered
    rw [← answered]
    obtain ⟨bytes, found, length⟩ := nextAligned.length
    exact write_entries_holds nextAligned.handle found length failure entries

end

theorem append_batch_described (answered : (appendBatch faults store entries).1 = .ok indices) :
    List.Forall₂ (fun index entry => index = indexAt index.fileId index.offset entry)
      indices entries := by
  have pending (fileId offset : Nat) (batch : List EntryToAppend) :
      List.Forall₂ (fun index entry => index = indexAt index.fileId index.offset entry)
        (pendingIndices fileId offset batch) batch := by
    induction batch generalizing offset with
    | nil => exact List.Forall₂.nil
    | cons entry batch ih => exact List.Forall₂.cons rfl (ih _)
  by_cases nonempty : entries = []
  · subst nonempty
    simp only [appendBatch, isEmpty_nil, if_true, Except.ok.injEq] at answered
    rw [← answered]
    exact List.Forall₂.nil
  obtain ⟨_, _, _, _, result⟩ | ⟨next, _, result⟩ := append_batch_eq faults store nonempty
  · rw [result] at answered
    simp at answered
  rw [result, write_entries_collect faults next nonempty] at answered
  cases failure : faults.writeError with
  | some pair => simp [failure] at answered
  | none =>
    simp only [failure, Except.ok.injEq] at answered
    rw [← answered]
    exact pending _ _ entries

end EntryLogStore

end PulsarLite.Storage
