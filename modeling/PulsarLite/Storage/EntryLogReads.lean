import PulsarLite.Storage.EntryLogDurability

/-!
# What a read of the entry log accepts

The bytes of the file may be anything. A read accepts what agrees with its index in
every field that the index has; its slices of a header that claims to be shorter than
28 bytes are out of bounds. The checksum is a sum, so one changed byte always shows.
-/

namespace PulsarLite.Storage.EntryLogStore

open Library EntryLogDurability List Option

variable {index : EntryIndex} {bytes header : Bytes} {record : EntryRecord}

/-- The header in front of the bytes agrees with the index, and the record is read
from the bytes behind it. -/
structure Matches (index : EntryIndex) (header tail : Bytes) (record : EntryRecord) : Prop where
  cut : header = tail.take (wordAt header 6 2)
  magic : wordAt header 0 4 = entryMagic
  version : wordAt header 4 2 = entryVersion ∧ wordAt header 6 2 = entryHeaderLen ∨
    wordAt header 4 2 = entryVersionLegacy ∧ wordAt header 6 2 = entryHeaderLenLegacy
  position : wordAt header 8 8 = index.ledgerId ∧ wordAt header 16 8 = index.entryId
  length : wordAt header 6 2 + (bodyFields header).1 + (bodyFields header).2.1 = index.len
  metadata : record.metadata = (tail.drop (wordAt header 6 2)).take (bodyFields header).1
  payload : record.payload =
    ((tail.drop (wordAt header 6 2)).drop (bodyFields header).1).take (bodyFields header).2.1
  checksum : checksum [record.metadata, record.payload] = (bodyFields header).2.2 ∧
    (bodyFields header).2.2 = index.checksum

section

variable (store : EntryLogStore) (index : EntryIndex)

def tailAt : Option Bytes :=
  (store.files.contents index.fileId).map fun bytes => bytes.drop index.offset

/-- There is a header, and its length is too small for the slices. -/
def ShortHeader : Prop :=
  ∃ tail, store.tailAt index = some tail ∧ 8 ≤ tail.length ∧ (wordAt tail 6 2 < 8 ∨
    wordAt tail 6 2 < 28 ∧ wordAt tail 6 2 ≤ tail.length)

def ReadSound : Prop :=
  store.read index ≠ .error .panic ∧ ∀ record, store.read index = .ok record →
    ∃ header tail, store.tailAt index = some tail ∧ Matches index header tail record

end

theorem matches_of_checks {tail : List UInt8} (cut : header = tail.take (wordAt header 6 2))
    (rest : bytes.drop index.offset = tail) (passed : checkHeader index header = .ok ())
    (returned : readBody index bytes header = .ok record) : Matches index header tail record := by
  unfold checkHeader at passed
  dsimp only at passed
  split_ifs at passed
  simp only [readBody, read_bytes_eq, ← drop_drop, rest] at returned
  split_ifs at returned <;> simp only [bind, Except.bind, reduceCtorEq] at returned
  split_ifs at returned
  cases returned
  constructor
  all_goals grind

theorem matches_of_read {store : EntryLogStore} (returned : store.read index = .ok record) :
    ∃ header tail, store.tailAt index = some tail ∧ Matches index header tail record := by
  unfold tailAt
  cases found : store.files.contents index.fileId with
  | none => simp [read, found] at returned
  | some bytes =>
    rw [read_found found rfl] at returned
    split_ifs at returned
    obtain ⟨_, checked, body⟩ := bind_eq_ok.mp returned
    exact ⟨_, _, rfl, matches_of_checks (by rw [word_at_take (by omega)]) rfl checked body⟩

theorem check_header_panic (index header) :
    checkHeader index header = .error .panic ↔ wordAt header 6 2 < 28 := by
  unfold checkHeader
  dsimp only
  split_ifs <;> simp_all

theorem read_body_ne_panic : readBody index bytes header ≠ .error .panic := by
  simp only [readBody, read_bytes_eq]
  split_ifs <;> simp [bind, Except.bind]
  split_ifs <;> simp

theorem read_panic_iff (store index) :
    store.read index = .error .panic ↔ ShortHeader store index := by
  unfold ShortHeader tailAt
  cases found : store.files.contents index.fileId with
  | none => simp [read, found]
  | some bytes =>
    simp only [map_some, some.injEq, exists_eq_left']
    generalize rest : bytes.drop index.offset = tail
    rw [read_found found rest]
    split_ifs with missing tiny within
    · simp [missing]
    · simp [tiny, Nat.le_of_not_lt missing]
    · simp [tiny, within]
    have panics := check_header_panic index (tail.take (wordAt tail 6 2))
    rw [word_at_take (by omega)] at panics
    cases checked : checkHeader index (tail.take (wordAt tail 6 2)) with
    | ok =>
      simp only [checked, reduceCtorEq, false_iff] at panics
      simpa [bind, Except.bind, tiny, panics] using read_body_ne_panic
    | error failure =>
      rw [checked, Except.error.injEq] at panics
      simp [bind, Except.bind, panics, tiny, Nat.le_of_not_lt missing, Nat.le_of_not_lt within]

/-- A read fails or returns what the index says, unless the header is too short. -/
theorem read_sound_iff (store : EntryLogStore) (index : EntryIndex) :
    ReadSound store index ↔ ¬ ShortHeader store index := by
  rw [← read_panic_iff]
  exact ⟨And.left, fun safe => ⟨safe, fun record => matches_of_read⟩⟩

theorem read_of_short_header_panics :
    read { openWithLimit [] 1 with files := [(0, replicate 8 0)] } (indexAt 0 0 sampleEntry) =
      .error .panic := by
  decide

variable {left right : Bytes} {old new : UInt8}

theorem drop_replaced {offset : Nat} (past : left.length < offset) :
    (left ++ new :: right).drop offset = (left ++ old :: right).drop offset := by
  obtain ⟨more, rfl⟩ := Nat.exists_eq_add_of_lt past
  rw [Nat.add_assoc, drop_length_add_append, drop_length_add_append]
  rfl

theorem word_at_replaced {offset width : Nat}
    (outside : offset + width ≤ left.length ∨ left.length < offset) :
    wordAt (left ++ new :: right) offset width = wordAt (left ++ old :: right) offset width := by
  obtain before | past := outside
  · rw [word_at_append _ before, word_at_append _ before]
  · rw [wordAt, wordAt, drop_replaced past]

theorem replaced_eq (same : ((left ++ new :: right).map UInt8.toNat).sum % u64Modulus =
    ((left ++ old :: right).map UInt8.toNat).sum % u64Modulus) : new = old := by
  have newBound := new.toNat_lt
  have oldBound := old.toNat_lt
  simp only [List.map_append, List.map_cons, List.sum_append, List.sum_cons, u64Modulus] at same
  exact UInt8.toNat_inj.mp (by omega)

variable {entry : EntryToAppend} {fileId offset : Nat} {after : Bytes}

theorem replaced_length (new : UInt8) (split : encodeEntry entry = left ++ old :: right) :
    (left ++ new :: right).length = 44 + entry.metadata.length + entry.payload.length := by
  have length := encode_entry_length entry
  rw [split, length_append, entryLen, entryHeaderLen] at length
  rw [← length, length_append]
  rfl

theorem lengths_of_matches (inRange : InRange entry)
    (split : encodeEntry entry = left ++ old :: right)
    (matched : Matches (indexAt fileId offset entry) header
      (left ++ new :: right ++ after) record) :
    wordAt header 6 2 = 44 ∧ (bodyFields header).1 = entry.metadata.length ∧
      (bodyFields header).2.1 = entry.payload.length := by
  have encoded := header_of_encoded inRange
  have size := header_length entry
  have whole := replaced_length new split
  have word (offset width : Nat) (within : offset + width ≤ 44)
      (outside : offset + width ≤ left.length ∨ left.length < offset) :
      wordAt (left ++ new :: right ++ after) offset width =
        wordAt (encodeWords (headerWords entry)) offset width := by
    rw [word_at_append after (by omega), word_at_replaced outside, ← split, encodeEntry,
      append_assoc, word_at_append _ (by omega)]
  generalize left ++ new :: right ++ after = tail at matched word
  have same (offset width : Nat) (within : offset + width ≤ wordAt header 6 2) :
      wordAt header offset width = wordAt tail offset width := by
    conv_lhs => rw [matched.cut]
    exact word_at_take within
  have current : wordAt header 4 2 = entryVersion ∧ wordAt header 6 2 = 44 := by
    obtain current | ⟨legacy, short⟩ := matched.version
    · exact current
    rw [entryHeaderLenLegacy] at short
    by_cases early : left.length < 6
    · rw [same 6 2 (by omega), word 6 2 (by decide) (.inr early), encoded.headerLen] at short
      cases short
    · rw [same 4 2 (by omega), word 4 2 (by decide) (.inl (by omega)), encoded.version] at legacy
      cases legacy
  have length := matched.length
  have fields : bodyFields header =
      (wordAt header 28 4, wordAt header 32 4, wordAt header 36 8) := by
    rw [bodyFields, current.1, if_neg (by decide)]
  rw [fields, current.2] at length
  rw [fields]
  refine ⟨current.2, ?_⟩
  simp only [indexAt, entryLen, entryHeaderLen] at length ⊢
  by_cases early : left.length < 32
  · have payloadLen := (word 32 4 (by decide) (.inr early)).trans encoded.payloadLen
    rw [← same 32 4 (by omega)] at payloadLen
    omega
  · have metadataLen := (word 28 4 (by decide) (.inl (by omega))).trans encoded.metadataLen
    rw [← same 28 4 (by omega)] at metadataLen
    omega

/-- Whatever one byte of an entry is replaced by, a read of the entry fails or
returns the metadata and the payload that were written. -/
theorem replaced_byte_not_returned (store : EntryLogStore) (fileId : Nat) (inRange : InRange entry)
    (before left right after : Bytes) (old new : UInt8)
    (split : encodeEntry entry = left ++ old :: right)
    (found : store.files.contents fileId = some (before ++ (left ++ new :: right ++ after)))
    (returned : store.read (indexAt fileId before.length entry) = .ok record) :
    record.metadata = entry.metadata ∧ record.payload = entry.payload := by
  obtain ⟨header, tail, present, matched⟩ := matches_of_read returned
  simp only [tailAt, indexAt, found, map_some, drop_left, some.injEq] at present
  rw [← present] at matched
  obtain ⟨headerLen, metadataLen, payloadLen⟩ := lengths_of_matches inRange split matched
  have size := header_length entry
  have whole := replaced_length new split
  have body : (left ++ old :: right).drop 44 = entry.metadata ++ entry.payload := by
    rw [← split, encodeEntry, append_assoc, drop_left' size]
  have joined : record.metadata ++ record.payload = (left ++ new :: right).drop 44 := by
    rw [matched.metadata, matched.payload, headerLen, metadataLen, payloadLen, ← take_add,
      drop_append_of_le_length (by omega), take_left']
    rw [length_drop]
    omega
  have metadata : record.metadata.length = entry.metadata.length := by
    rw [matched.metadata, headerLen, metadataLen, length_take, length_drop, length_append]
    omega
  have intact : (left ++ new :: right).drop 44 = entry.metadata ++ entry.payload := by
    by_cases early : left.length < 44
    · rw [drop_replaced early, body]
    have cut (byte : UInt8) : (left ++ byte :: right).drop 44 = left.drop 44 ++ byte :: right :=
      drop_append_of_le_length (by omega)
    have sums : checksum [record.metadata, record.payload] =
        checksum [entry.metadata, entry.payload] :=
      matched.checksum.1.trans matched.checksum.2
    simp only [checksum_eq, flatten_cons, flatten_nil, append_nil, joined, ← body, cut] at sums
    rw [← body, replaced_eq sums]
  exact append_inj (joined.trans intact) metadata

/-- The sample with the first byte of its partition replaced. -/
def damagedStore : EntryLogStore :=
  { openWithLimit [] 1 with
    files := [(0, (encodeEntry sampleEntry).take 24 ++ 0 :: (encodeEntry sampleEntry).drop 25)] }

def damagedRecord : EntryRecord := { sampleRecord with partition := -256 }

theorem replaced_partition_byte_returned :
    damagedStore.read (indexAt 0 0 sampleEntry) = .ok damagedRecord ∧
      damagedRecord.metadata = [1] ∧ damagedRecord.payload = [2, 3] :=
  ⟨by decide, replaced_byte_not_returned damagedStore 0 sample_in_range []
    ((encodeEntry sampleEntry).take 24) ((encodeEntry sampleEntry).drop 25) [] 255 0
    (by decide) (by decide) (by decide)⟩

end PulsarLite.Storage.EntryLogStore
