import PulsarLite.Library.Bytes

/-!
# What a dispatcher reads in the metadata of a message

The number of messages in a batch, and the sticky key with its hash. Decoding the
metadata is left open: it is a function from bytes to the fields, or to nothing.
-/

namespace PulsarLite.Broker

open Library

/-- The fields of `MessageMetadata` that the broker looks at; texts are in UTF-8. -/
structure MessageMetadata where
  producerName : Bytes
  sequenceId : Nat
  partitionKey : Option Bytes
  orderingKey : Option Bytes
  numMessagesInBatch : Option Int
deriving DecidableEq

abbrev Decode := Bytes → Option MessageMetadata

variable (decode : Decode) (metadata : Bytes)

def messagesInBatch : Nat :=
  match (decode metadata).bind MessageMetadata.numMessagesInBatch with
  | some count => if 0 < count then count.toNat else 1
  | none => 1

def decimalDigits (value : Nat) : Bytes :=
  (Nat.toDigits 10 value).map fun digit => .ofNat digit.toNat

def resolveStickyKey : Bytes :=
  match decode metadata with
  | none => []
  | some metadata =>
    match metadata.orderingKey, metadata.partitionKey with
    | some orderingKey, _ => orderingKey
    | none, some partitionKey => partitionKey
    | none, none =>
      if metadata.producerName.isEmpty then []
      else metadata.producerName ++ [0x2d] ++ decimalDigits metadata.sequenceId

def rotateLeft (value : UInt32) (count : UInt32) : UInt32 :=
  (value <<< count) ||| (value >>> (32 - count))

def scramble (k : UInt32) : UInt32 := rotateLeft (k * 0xcc9e2d51) 15 * 0x1b873593

/-- The whole words of the input, and the bytes that are left. -/
def murmurChunks (hash : UInt32) : Bytes → UInt32 × Bytes
  | first :: second :: third :: fourth :: rest =>
    let word := first.toUInt32 ||| (second.toUInt32 <<< 8) ||| (third.toUInt32 <<< 16) |||
      (fourth.toUInt32 <<< 24)
    murmurChunks (rotateLeft (hash ^^^ scramble word) 13 * 5 + 0xe6546b64) rest
  | tail => (hash, tail)

def murmurTail : Bytes → UInt32
  | [first] => first.toUInt32
  | [first, second] => (second.toUInt32 <<< 8) ^^^ first.toUInt32
  | [first, second, third] =>
    (third.toUInt32 <<< 16) ^^^ (second.toUInt32 <<< 8) ^^^ first.toUInt32
  | _ => 0

def murmurFinish (hash : UInt32) : UInt32 :=
  let hash := (hash ^^^ (hash >>> 16)) * 0x85ebca6b
  let hash := (hash ^^^ (hash >>> 13)) * 0xc2b2ae35
  hash ^^^ (hash >>> 16)

def murmur332 (bytes : Bytes) (seed : UInt32) : UInt32 :=
  let chunked := murmurChunks seed bytes
  let hash := if chunked.2.isEmpty then chunked.1 else chunked.1 ^^^ scramble (murmurTail chunked.2)
  murmurFinish (hash ^^^ .ofNat bytes.length)

def stickyRangeSize : UInt32 := 65536

def stickyKeyHash (stickyKey : Bytes) : Int := ((murmur332 stickyKey 0) % stickyRangeSize).toNat

def stickyKeyHashFromMetadata : Int :=
  stickyKeyHash (resolveStickyKey decode metadata)

end PulsarLite.Broker
