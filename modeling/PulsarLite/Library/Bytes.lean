import Mathlib.Data.Nat.ModEq
import Mathlib.Tactic.Ring

/-!
# Words in bytes

Fixed-width encodings of natural numbers, little-endian and big-endian, and the two
readings of a machine word: the unsigned one, and the two's complement one.
-/

namespace PulsarLite.Library

open List

variable {value width offset count : Nat}

abbrev Bytes := List UInt8

def encodeLE : Nat → Nat → Bytes
  | 0, _ => []
  | width + 1, value => .ofNat value :: encodeLE width (value / 256)

def decodeLE : Bytes → Nat
  | [] => 0
  | byte :: rest => byte.toNat + 256 * decodeLE rest

@[simp] theorem encode_le_length (width value : Nat) : (encodeLE width value).length = width := by
  induction width generalizing value with
  | zero => rfl
  | succ width ih => simp [encodeLE, ih]

theorem decode_le_encode (width value : Nat) : decodeLE (encodeLE width value) =
    value % 256 ^ width := by
  induction width generalizing value with
  | zero => simp [encodeLE, decodeLE, Nat.mod_one]
  | succ width ih =>
    have low : (UInt8.ofNat value).toNat = value % 256 := by simp
    rw [encodeLE, decodeLE, ih, low, pow_succ, mul_comm (256 ^ width) 256, Nat.mod_mul]

theorem decode_le_encode_of_lt (fits : value < 256 ^ width) :
    decodeLE (encodeLE width value) = value := by
  rw [decode_le_encode, Nat.mod_eq_of_lt fits]

def encodeBE (width value : Nat) : Bytes := (encodeLE width value).reverse

def decodeBE (bytes : Bytes) : Nat := decodeLE bytes.reverse

@[simp] theorem encode_be_length (width value : Nat) : (encodeBE width value).length = width := by
  rw [encodeBE, length_reverse, encode_le_length]

theorem decode_be_encode_of_lt (fits : value < 256 ^ width) :
    decodeBE (encodeBE width value) = value := by
  rw [decodeBE, encodeBE, reverse_reverse, decode_le_encode_of_lt fits]

theorem encode_le_decode (bytes : Bytes) : encodeLE bytes.length (decodeLE bytes) = bytes := by
  induction bytes with
  | nil => rfl
  | cons byte rest ih =>
    have low : .ofNat (byte.toNat + 256 * decodeLE rest) = byte := by
      rw [← UInt8.toNat_inj, UInt8.toNat_ofNat']
      have := byte.toNat_lt
      omega
    have high : (byte.toNat + 256 * decodeLE rest) / 256 = decodeLE rest := by
      have := byte.toNat_lt
      omega
    rw [length_cons, decodeLE, encodeLE, low, high, ih]

theorem encode_be_decode (bytes : Bytes) : encodeBE bytes.length (decodeBE bytes) = bytes := by
  rw [encodeBE, decodeBE, ← length_reverse, encode_le_decode, reverse_reverse]

theorem encode_le_drop (low high value : Nat) :
    (encodeLE (low + high) value).drop low = encodeLE high (value / 256 ^ low) := by
  induction low generalizing value with
  | zero => simp
  | succ low ih =>
    rw [Nat.add_right_comm, encodeLE, drop_succ_cons, ih, Nat.div_div_eq_div_mul, pow_succ']

theorem encode_be_take (high low value : Nat) :
    (encodeBE (low + high) value).take high = encodeBE high (value / 256 ^ low) := by
  rw [encodeBE, encodeBE, ← encode_le_drop, take_reverse, encode_le_length, Nat.add_sub_cancel]

variable (words : List (Nat × Nat))

def encodeWords : Bytes :=
  words.flatMap fun word => encodeLE word.1 word.2

def wordAt (bytes : Bytes) (offset width : Nat) : Nat :=
  decodeLE ((bytes.drop offset).take width)

theorem encode_words_length : (encodeWords words).length = (words.map Prod.fst).sum := by
  simp [encodeWords, length_flatMap]

theorem word_at_encode_words (before : List (Nat × Nat)) {words after : List (Nat × Nat)}
    (split : words = before ++ (width, value) :: after)
    (position : (before.map Prod.fst).sum = offset) (fits : value < 256 ^ width) :
    wordAt (encodeWords words) offset width = value := by
  have layout : encodeWords words =
      encodeWords before ++ (encodeLE width value ++ encodeWords after) := by
    simp [split, encodeWords]
  have skipped : (encodeWords before).length = offset := by
    rw [encode_words_length, position]
  rw [wordAt, layout, drop_left' skipped, take_left' (encode_le_length width value),
    decode_le_encode_of_lt fits]

variable {bytes : Bytes}

theorem word_at_append (more : Bytes) (within : offset + width ≤ bytes.length) :
    wordAt (bytes ++ more) offset width = wordAt bytes offset width := by
  rw [wordAt, wordAt, drop_append_of_le_length (by omega), take_append_of_le_length]
  rw [length_drop]
  omega

theorem word_at_take (within : offset + width ≤ count) :
    wordAt (bytes.take count) offset width = wordAt bytes offset width := by
  rw [wordAt, wordAt, drop_take, take_take, Nat.min_eq_left (by omega)]

def wordOfInt (width : Nat) (value : Int) : Nat := (value % (256 ^ width : Nat)).toNat

def intOfWord (width : Nat) (word : Nat) : Int :=
  if 2 * word < 256 ^ width then (word : Int) else (word : Int) - (256 ^ width : Nat)

theorem int_of_word_of_int {value : Int} (low : -(256 ^ width : Nat) ≤ 2 * value)
    (high : 2 * value < (256 ^ width : Nat)) :
    intOfWord width (wordOfInt width value) = value := by
  have modulus : (0 : Int) < (256 ^ width : Nat) := Int.natCast_pos.mpr (Nat.pow_pos (by decide))
  have word : ((wordOfInt width value : Nat) : Int) = value % (256 ^ width : Nat) :=
    Int.toNat_of_nonneg (Int.emod_nonneg _ modulus.ne')
  rcases lt_or_ge value 0 with negative | nonnegative
  · have wrapped : value % (256 ^ width : Nat) = value + (256 ^ width : Nat) := by
      rw [← Int.add_emod_right]
      exact Int.emod_eq_of_lt (by omega) (by omega)
    have big : ¬ 2 * wordOfInt width value < 256 ^ width := by
      omega
    rw [intOfWord, if_neg big, word, wrapped]
    omega
  · have plain : value % (256 ^ width : Nat) = value := Int.emod_eq_of_lt nonnegative (by omega)
    have small : 2 * wordOfInt width value < 256 ^ width := by
      omega
    rw [intOfWord, if_pos small, word, plain]

theorem word_of_int_lt (width : Nat) (value : Int) : wordOfInt width value < 256 ^ width := by
  have modulus : (0 : Int) < (256 ^ width : Nat) := Int.natCast_pos.mpr (Nat.pow_pos (by decide))
  unfold wordOfInt
  omega

end PulsarLite.Library
