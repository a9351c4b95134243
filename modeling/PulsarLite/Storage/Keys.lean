import Mathlib.Data.List.Basic
import PulsarLite.Library.Bytes

/-!
# RocksDB keys

The keys under which ledger metadata, cursors, entry locations and the ledger id
allocator are stored, as character sequences, and the names they are built from.
-/

namespace PulsarLite.Storage

open List

abbrev Text := List Char

namespace Keys

def managedLedgersRoot : Text := "/managed-ledgers/".toList

def entryRoot : Text := "entry|".toList

def managedCursorKey (ledgerName cursorName : Text) : Text :=
  managedLedgersRoot ++ ledgerName ++ ['/'] ++ cursorName

def managedLedgerKey (ledgerName : Text) : Text :=
  managedLedgersRoot ++ ledgerName

def ledgerIdAllocatorKey : Text := "managed_ledger|next_ledger_id".toList

def managedEntryKey (ledgerId entryId : Nat) : Text :=
  entryRoot ++ Nat.toDigits 10 ledgerId ++ ['|'] ++ Nat.toDigits 10 entryId

/-- `split_once`: the text before and after the first occurrence of `pattern`. -/
def splitOnce (pattern : Text) : Text → Option (Text × Text)
  | [] => if pattern.isEmpty then some ([], []) else none
  | char :: rest =>
    if pattern.isPrefixOf (char :: rest) then
      some ([], (char :: rest).drop pattern.length)
    else (splitOnce pattern rest).map fun parts => (char :: parts.1, parts.2)

/-- `scheme://tenant/namespace/local` becomes `tenant/namespace/scheme/local`;
every other topic is its own ledger name. -/
def managedLedgerName (topic : Text) : Text :=
  match splitOnce "://".toList topic with
  | none => topic
  | some (domain, rest) =>
    match splitOnce ['/'] rest with
    | none => topic
    | some (tenant, rest) =>
      match splitOnce ['/'] rest with
      | none => topic
      | some (namespaceName, localName) =>
        tenant ++ ['/'] ++ namespaceName ++ ['/'] ++ domain ++ ['/'] ++ localName

def hexDigits : Text := "0123456789ABCDEF".toList

def keptByte (byte : UInt8) : Bool :=
  (Char.ofNat byte.toNat).isAlphanum && decide (byte.toNat < 128) ||
    ['-', '.', '_', '~'].contains (.ofNat byte.toNat)

def encodeCursorName (name : Text) : Text :=
  (name.flatMap String.utf8EncodeChar).flatMap fun byte =>
    if keptByte byte then [.ofNat byte.toNat]
    else ['%', hexDigits.getD (byte.toNat / 16) '0', hexDigits.getD (byte.toNat % 16) '0']

example : managedLedgerName "persistent://public/default/orders".toList =
    "public/default/persistent/orders".toList := by decide

example : encodeCursorName "a/b".toList = "a%2Fb".toList := by decide

theorem to_digits_injective {left right : Nat}
    (same : Nat.toDigits 10 left = Nat.toDigits 10 right) :
    left = right := by
  rw [← Nat.ofDigitChars_ten_toDigits (n := left), same, Nat.ofDigitChars_ten_toDigits]

theorem separator_not_digit (value : Nat) : '|' ∉ Nat.toDigits 10 value := by
  intro member
  have digit := Nat.isDigit_of_mem_toDigits (by decide) (by decide) member
  exact absurd digit (by decide)

variable {left leftRest right rightRest : Text}

theorem append_separator_inj {separator : Char} (leftFree : separator ∉ left)
    (rightFree : separator ∉ right)
    (same : left ++ separator :: leftRest = right ++ separator :: rightRest) :
    left = right ∧ leftRest = rightRest := by
  induction left generalizing right with
  | nil =>
    cases right with
    | nil => simpa using same
    | cons char right =>
      simp only [nil_append, cons_append, cons.injEq] at same
      exact absurd (mem_cons.mpr (.inl same.1)) rightFree
  | cons char left ih =>
    cases right with
    | nil =>
      simp only [nil_append, cons_append, cons.injEq] at same
      exact absurd (mem_cons.mpr (.inl same.1.symm)) leftFree
    | cons other right =>
      simp only [cons_append, cons.injEq] at same
      obtain ⟨tails, rests⟩ := ih (fun member => leftFree (mem_cons_of_mem _ member))
        (fun member => rightFree (mem_cons_of_mem _ member)) same.2
      exact ⟨by rw [same.1, tails], rests⟩

theorem managed_entry_key_inj {leftLedger leftEntry rightLedger rightEntry : Nat}
    (same : managedEntryKey leftLedger leftEntry = managedEntryKey rightLedger rightEntry) :
    leftLedger = rightLedger ∧ leftEntry = rightEntry := by
  unfold managedEntryKey at same
  rw [append_assoc, append_assoc, append_assoc, append_assoc] at same
  obtain ⟨ledgers, entries⟩ := append_separator_inj (separator_not_digit leftLedger)
    (separator_not_digit rightLedger) (append_cancel_left same)
  exact ⟨to_digits_injective ledgers, to_digits_injective entries⟩

theorem managed_ledger_key_inj (same : managedLedgerKey left = managedLedgerKey right) :
    left = right :=
  append_cancel_left same

theorem cursor_key_ne_ledger_key (ledgerName cursorName : Text) :
    managedCursorKey ledgerName cursorName ≠ managedLedgerKey ledgerName := by
  intro same
  have lengths := congrArg List.length same
  unfold managedCursorKey managedLedgerKey at lengths
  rw [length_append, length_append, length_singleton] at lengths
  omega

/-! The four kinds of keys differ in their first character, except for ledger
and cursor keys, which share the root. -/

theorem cursor_key_head (ledgerName cursorName : Text) :
    (managedCursorKey ledgerName cursorName).head? = some '/' := rfl

theorem ledger_key_head (ledgerName : Text) : (managedLedgerKey ledgerName).head? = some '/' := rfl

theorem entry_key_head (ledgerId entryId : Nat) :
    (managedEntryKey ledgerId entryId).head? = some 'e' := rfl

theorem allocator_key_head : ledgerIdAllocatorKey.head? = some 'm' := rfl

theorem ne_of_heads {leftHead rightHead : Char} (leftFirst : left.head? = some leftHead)
    (rightFirst : right.head? = some rightHead) (different : leftHead ≠ rightHead) :
    left ≠ right := by
  rintro rfl
  rw [leftFirst] at rightFirst
  exact different (Option.some.inj rightFirst)

theorem cursor_key_ne_entry_key (ledgerName cursorName ledgerId entryId) :
    managedCursorKey ledgerName cursorName ≠ managedEntryKey ledgerId entryId :=
  ne_of_heads (cursor_key_head _ _) (entry_key_head _ _) (by decide)

theorem cursor_key_ne_allocator_key (ledgerName cursorName : Text) :
    managedCursorKey ledgerName cursorName ≠ ledgerIdAllocatorKey :=
  ne_of_heads (cursor_key_head _ _) allocator_key_head (by decide)

theorem ledger_key_ne_entry_key (ledgerName ledgerId entryId) :
    managedLedgerKey ledgerName ≠ managedEntryKey ledgerId entryId :=
  ne_of_heads (ledger_key_head _) (entry_key_head _ _) (by decide)

theorem ledger_key_ne_allocator_key (ledgerName : Text) :
    managedLedgerKey ledgerName ≠ ledgerIdAllocatorKey :=
  ne_of_heads (ledger_key_head _) allocator_key_head (by decide)

theorem entry_key_ne_allocator_key (ledgerId entryId : Nat) :
    managedEntryKey ledgerId entryId ≠ ledgerIdAllocatorKey :=
  ne_of_heads (entry_key_head _ _) allocator_key_head (by decide)

def encodeByte (byte : UInt8) : Text :=
  if keptByte byte then [.ofNat byte.toNat]
  else ['%', hexDigits.getD (byte.toNat / 16) '0', hexDigits.getD (byte.toNat % 16) '0']

theorem encode_cursor_name_eq (name : Text) :
    encodeCursorName name = (name.flatMap String.utf8EncodeChar).flatMap encodeByte := rfl

theorem kept_value_char : ∀ value < 256, keptByte (.ofNat value) = true →
    Char.ofNat value ≠ '%' ∧ Char.ofNat value ≠ '/' ∧ (Char.ofNat value).toNat = value := by
  decide +kernel

theorem kept_byte_char (byte : UInt8) (kept : keptByte byte = true) :
    .ofNat byte.toNat ≠ '%' ∧ .ofNat byte.toNat ≠ '/' ∧
      (Char.ofNat byte.toNat).toNat = byte.toNat := by
  apply kept_value_char byte.toNat byte.toNat_lt
  rw [UInt8.ofNat_toNat]
  exact kept

theorem hex_digit_inj : ∀ left < 16, ∀ right < 16,
    hexDigits.getD left '0' = hexDigits.getD right '0' → left = right := by
  decide

theorem hex_digit_ne_slash : ∀ digit < 16, hexDigits.getD digit '0' ≠ '/' := by
  decide

theorem encode_byte_inj {left right : UInt8}
    (same : encodeByte left ++ leftRest = encodeByte right ++ rightRest) :
    left = right ∧ leftRest = rightRest := by
  have leftBound := left.toNat_lt
  have rightBound := right.toNat_lt
  unfold encodeByte at same
  by_cases leftKept : keptByte left = true
  · have leftChar := kept_byte_char left leftKept
    by_cases rightKept : keptByte right = true
    · have rightChar := kept_byte_char right rightKept
      simp only [leftKept, rightKept, if_true, cons_append, nil_append, cons.injEq] at same
      have values : left.toNat = right.toNat := by
        rw [← leftChar.2.2, ← rightChar.2.2, same.1]
      exact ⟨UInt8.toNat_inj.mp values, same.2⟩
    · simp only [leftKept, rightKept, if_true, Bool.false_eq_true, if_false, cons_append,
        nil_append, cons.injEq] at same
      exact absurd same.1 leftChar.1
  · by_cases rightKept : keptByte right = true
    · simp only [leftKept, rightKept, if_true, Bool.false_eq_true, if_false, cons_append,
        nil_append, cons.injEq] at same
      exact absurd same.1.symm (kept_byte_char right rightKept).1
    simp only [leftKept, rightKept, Bool.false_eq_true, if_false, cons_append,
      nil_append, cons.injEq, true_and] at same
    have high := hex_digit_inj _ (by omega) _ (by omega) same.1
    have low := hex_digit_inj _ (by omega) _ (by omega) same.2.1
    exact ⟨UInt8.toNat_inj.mp (by omega), same.2.2⟩

theorem encode_byte_ne_nil (byte : UInt8) : encodeByte byte ≠ [] := by
  unfold encodeByte
  split_ifs
  · exact cons_ne_nil _ _
  · exact cons_ne_nil _ _

theorem encode_bytes_inj {left right : List UInt8}
    (same : left.flatMap encodeByte = right.flatMap encodeByte) : left = right := by
  induction left generalizing right with
  | nil =>
    cases right with
    | nil => rfl
    | cons byte right => simp [encode_byte_ne_nil] at same
  | cons byte left ih =>
    cases right with
    | nil => simp [encode_byte_ne_nil] at same
    | cons other right =>
      obtain ⟨bytes, rests⟩ := encode_byte_inj same
      rw [bytes, ih rests]

theorem encode_cursor_name_inj (same : encodeCursorName left = encodeCursorName right) :
    left = right := by
  have bytes : left.utf8Encode = right.utf8Encode := by
    unfold utf8Encode
    rw [encode_bytes_inj same]
  have decoded := congrArg ByteArray.utf8Decode? bytes
  simpa using decoded

theorem slash_not_mem_encode (name : Text) : '/' ∉ encodeCursorName name := by
  rw [encode_cursor_name_eq]
  intro member
  obtain ⟨byte, _, inside⟩ := mem_flatMap.mp member
  have bound := byte.toNat_lt
  unfold encodeByte at inside
  split_ifs at inside with kept
  · exact (kept_byte_char byte kept).2.1 (mem_singleton.mp inside).symm
  simp only [mem_cons, not_mem_nil, or_false] at inside
  obtain percent | high | low := inside
  · exact absurd percent (by decide)
  · exact hex_digit_ne_slash _ (by omega) high.symm
  · exact hex_digit_ne_slash _ (by omega) low.symm

theorem cursor_key_inj {leftLedger rightLedger leftName rightName : Text}
    (same : managedCursorKey leftLedger (encodeCursorName leftName) =
      managedCursorKey rightLedger (encodeCursorName rightName)) :
    leftLedger = rightLedger ∧ leftName = rightName := by
  unfold managedCursorKey at same
  simp only [append_assoc] at same
  have reversed := congrArg reverse (append_cancel_left same)
  simp only [reverse_append, reverse_cons, append_assoc, singleton_append] at reversed
  obtain ⟨names, ledgers⟩ := append_separator_inj (by simpa using slash_not_mem_encode leftName)
    (by simpa using slash_not_mem_encode rightName) reversed
  exact ⟨reverse_injective ledgers, encode_cursor_name_inj (reverse_injective names)⟩

end Keys

end PulsarLite.Storage
