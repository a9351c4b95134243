import PulsarLite.Broker.StickyKey
import PulsarLite.Library.Framing

/-!
# The frames of the binary protocol

A frame is its size, the size of the command, the command, and for a message the size
of the metadata, the metadata and the payload. The decoder looks for a magic number
where the size of the metadata stands; a frame within the limit is too small for its
metadata to have such a size.
-/

namespace PulsarLite.Proto

open Library Broker List

variable {bytes body : Bytes}

structure MessageIdData where
  ledgerId : Nat
  entryId : Nat
  partition : Int
deriving DecidableEq

/-- The commands that a server sends, with the fields it sets in them. Errors are the
numbers of `ServerError`. -/
inductive BaseCommand
  | connected (serverVersion : String) (protocolVersion : Int)
  | lookupTopicResponse (requestId : Nat) (brokerServiceUrl : String)
      (authoritative proxyThroughServiceUrl : Bool)
  | partitionMetadataResponse (requestId partitions : Nat)
  | sendReceipt (producerId sequenceId : Nat) (messageId : MessageIdData)
  | sendError (producerId sequenceId : Nat) (error : Int) (message : String)
  | success (requestId : Nat)
  | error (requestId : Nat) (message : String)
  | producerSuccess (requestId : Nat) (producerName : String) (lastSequenceId : Int)
      (schemaVersion : Bytes) (producerReady : Bool)
  | consumerStatsResponse (requestId : Nat) (consumerName : String)
  | message (consumerId : Nat) (messageId : MessageIdData) (redeliveryCount : Option Nat)
  | ackResponse (consumerId requestId : Nat)
  | getLastMessageIdResponse (requestId : Nat) (lastMessageId : MessageIdData)
  | ping
  | pong
deriving DecidableEq

inductive ServerCommand
  | connected (serverVersion : String) (protocolVersion : Int)
  | lookupResponse (requestId : Nat) (brokerServiceUrl : String)
  | partitionMetadataResponse (requestId : Nat) (partitions : Int)
  | sendReceipt (producerId sequenceId ledgerId entryId : Nat) (partition : Int)
  | sendError (producerId sequenceId : Nat) (error : Int) (message : String)
  | success (requestId : Nat)
  | error (requestId : Nat) (error : String)
  | producerSuccess (requestId : Nat) (producerName : String) (producerId : Nat)
  | consumerStatsResponse (requestId : Nat) (consumerName : String)
  | message (consumerId ledgerId entryId : Nat) (partition : Int) (metadata payload : Bytes)
  | ackResponse (consumerId requestId : Nat)
  | lastMessageIdResponse (requestId ledgerId entryId : Nat) (partition : Int)
  | ping
  | pong
deriving DecidableEq

def ServerCommand.toBaseCommand : ServerCommand → BaseCommand
  | connected serverVersion protocolVersion => .connected serverVersion protocolVersion
  | lookupResponse requestId brokerServiceUrl =>
    .lookupTopicResponse requestId brokerServiceUrl false false
  | partitionMetadataResponse requestId partitions =>
    .partitionMetadataResponse requestId (partitions % 2 ^ 32).toNat
  | sendReceipt producerId sequenceId ledgerId entryId partition =>
    .sendReceipt producerId sequenceId ⟨ledgerId, entryId, partition⟩
  | sendError producerId sequenceId code text => .sendError producerId sequenceId code text
  | success requestId => .success requestId
  | error requestId text => .error requestId text
  | producerSuccess requestId producerName _ => .producerSuccess requestId producerName (-1) [] true
  | consumerStatsResponse requestId consumerName => .consumerStatsResponse requestId consumerName
  | message consumerId ledgerId entryId partition _ _ =>
    .message consumerId ⟨ledgerId, entryId, partition⟩ none
  | ackResponse consumerId requestId => .ackResponse consumerId requestId
  | lastMessageIdResponse requestId ledgerId entryId partition =>
    .getLastMessageIdResponse requestId ⟨ledgerId, entryId, partition⟩
  | ping => .ping
  | pong => .pong

/-- The encoder of the protobuf messages, whose lengths are what it says they are. -/
structure Prost where
  encode : BaseCommand → Bytes
  encodedLen : BaseCommand → Nat
  encodeMetadata : MessageMetadata → Bytes
  encodedMetadataLen : MessageMetadata → Nat
  encoded_len : ∀ command, encodedLen command = (encode command).length
  encoded_metadata_len : ∀ metadata,
    encodedMetadataLen metadata = (encodeMetadata metadata).length

def putU32 (value : Nat) : Bytes := encodeBE 4 value

def getU32 (bytes : Bytes) : Nat := decodeBE (bytes.take 4)

structure EncodedMessageParts where
  header : Bytes
  metadata : Bytes
  payload : Bytes

def messageCommand (consumerId ledgerId entryId : Nat) (partition : Int) (redeliveryCount : Nat) :
    BaseCommand :=
  .message consumerId ⟨ledgerId, entryId, partition⟩ (some redeliveryCount)

/-- The metadata of a message that was stored without any. -/
def synthesizedMetadata (entryId : Nat) : MessageMetadata where
  producerName := []
  sequenceId := entryId
  partitionKey := none
  orderingKey := none
  numMessagesInBatch := none

variable (prost : Prost) (consumerId ledgerId entryId : Nat) (partition : Int)
  (metadata payload : Bytes) (redeliveryCount : Nat)

def estimateMessagePartsSize : Nat :=
  let cmdLen := prost.encodedLen
    (messageCommand consumerId ledgerId entryId partition redeliveryCount)
  let metadataLen :=
    if metadata.isEmpty then prost.encodedMetadataLen (synthesizedMetadata entryId)
    else metadata.length
  (4 + 4 + cmdLen + 4) + metadataLen + payload.length

def encodeMessageParts : EncodedMessageParts :=
  let command := messageCommand consumerId ledgerId entryId partition redeliveryCount
  let cmdLen := prost.encodedLen command
  let metadataBytes :=
    if metadata.isEmpty then prost.encodeMetadata (synthesizedMetadata entryId) else metadata
  let totalSize := 4 + cmdLen + 4 + metadataBytes.length + payload.length
  { header := putU32 totalSize ++ putU32 cmdLen ++ prost.encode command ++
      putU32 metadataBytes.length
    metadata := metadataBytes
    payload := payload }

def encodeMessage (dst : Bytes) : Bytes :=
  let parts := encodeMessageParts prost consumerId ledgerId entryId partition metadata payload
    redeliveryCount
  dst ++ parts.header ++ parts.metadata ++ parts.payload

def encodeCommand (command : BaseCommand) (dst : Bytes) : Bytes :=
  let cmdLen := prost.encodedLen command
  dst ++ putU32 (4 + cmdLen) ++ putU32 cmdLen ++ prost.encode command

def encode (item : ServerCommand) (dst : Bytes) : Bytes :=
  match item with
  | .message consumerId ledgerId entryId partition metadata payload =>
    encodeMessage prost consumerId ledgerId entryId partition metadata payload 0 dst
  | command => encodeCommand prost command.toBaseCommand dst

structure PulsarFrame where
  command : Bytes
  metadata : Option Bytes
  payload : Bytes
  checksum : Option Nat
deriving DecidableEq

structure PulsarFrameCodec where
  maxFrameSize : Nat

def magicNumber : Nat := 0x0e01

def maxMessageSize : Nat := 5 * 1024 * 1024

def PulsarFrameCodec.new : PulsarFrameCodec where
  maxFrameSize := maxMessageSize + 10 * 1024

/-- The checksum behind the magic number, if there is one, and what follows. -/
def readChecksum (frameData : Bytes) : Option Nat × Bytes :=
  if 6 ≤ frameData.length then
    if decodeBE (frameData.take 2) = magicNumber then
      (some (decodeBE ((frameData.drop 2).take 4)), frameData.drop 6)
    else (none, frameData)
  else (none, frameData)

/-- If the metadata is not all there, its size is skipped and the rest is payload. -/
def readMetadata (remaining : Bytes) : Option Bytes × Bytes :=
  if 4 ≤ remaining.length then
    let metadataSize := getU32 remaining
    let remaining := remaining.drop 4
    if metadataSize ≤ remaining.length then
      (some (remaining.take metadataSize), remaining.drop metadataSize)
    else (none, remaining)
  else (none, remaining)

def decodeFrame (frameData : Bytes) : Except String PulsarFrame :=
  if frameData.length < 4 then .error "Missing command size"
  else
    let cmdSize := getU32 frameData
    let frameData := frameData.drop 4
    if frameData.length < cmdSize then .error "Incomplete command data"
    else
      let checked := readChecksum (frameData.drop cmdSize)
      let read := readMetadata checked.2
      .ok {
        command := frameData.take cmdSize
        metadata := read.1
        payload := read.2
        checksum := checked.1 }

def decode (codec : PulsarFrameCodec) (src : Bytes) : Except String (Option PulsarFrame) × Bytes :=
  if src.length < 4 then (.ok none, src)
  else
    let totalSize := getU32 src
    if codec.maxFrameSize < totalSize then
      (.error ("Frame too large: " ++ toString totalSize ++ " bytes"), src)
    else if src.length < 4 + totalSize then (.ok none, src)
    else ((decodeFrame ((src.take (4 + totalSize)).drop 4)).map some, src.drop (4 + totalSize))

theorem put_u32_length (value : Nat) : (putU32 value).length = 4 := encode_be_length 4 value

theorem get_put_u32 {value : Nat} (fits : value < 2 ^ 32) (rest : Bytes) :
    getU32 (putU32 value ++ rest) = value := by
  rw [getU32, take_left' (put_u32_length value), putU32]
  exact decode_be_encode_of_lt fits

theorem put_get_u32 (long : 4 ≤ bytes.length) :
    putU32 (getU32 bytes) = bytes.take 4 := by
  have width : (bytes.take 4).length = 4 := length_take_of_le long
  rw [putU32, getU32]
  nth_rewrite 1 [← width]
  exact encode_be_decode _

theorem read_checksum_none {size : Nat} (small : size < magicNumber * 2 ^ 16) (rest : Bytes) :
    readChecksum (putU32 size ++ rest) = (none, putU32 size ++ rest) := by
  have high : decodeBE ((putU32 size ++ rest).take 2) = size / 2 ^ 16 := by
    have digits : (putU32 size).take 2 = encodeBE 2 (size / 256 ^ 2) := encode_be_take 2 2 size
    have word : size / 256 ^ 2 < 256 ^ 2 := by
      unfold magicNumber at small
      omega
    rw [take_append_of_le_length (by rw [put_u32_length]; decide), digits]
    exact decode_be_encode_of_lt word
  unfold readChecksum
  split_ifs with long magic
  · omega
  · rfl
  · rfl

theorem read_metadata_some {metadata : Bytes} (fits : metadata.length < 2 ^ 32) (payload : Bytes) :
    readMetadata (putU32 metadata.length ++ (metadata ++ payload)) = (some metadata, payload) := by
  unfold readMetadata
  rw [if_pos (by rw [length_append, put_u32_length]; omega)]
  rw [get_put_u32 fits, drop_left' (put_u32_length _),
    if_pos (by rw [length_append]; omega), take_left' rfl, drop_left' rfl]

theorem decode_frame_command {command : Bytes} (fits : command.length < 2 ^ 32) (rest : Bytes) :
    decodeFrame (putU32 command.length ++ (command ++ rest)) =
      .ok {
        command := command
        metadata := (readMetadata (readChecksum rest).2).1
        payload := (readMetadata (readChecksum rest).2).2
        checksum := (readChecksum rest).1 } := by
  unfold decodeFrame
  rw [if_neg (by rw [length_append, put_u32_length]; omega)]
  rw [get_put_u32 fits, drop_left' (put_u32_length _),
    if_neg (by rw [length_append]; omega), take_left' rfl, drop_left' rfl]

def checksumSection : Option Nat → Bytes
  | some checksum => encodeBE 2 magicNumber ++ putU32 checksum
  | none => []

def metadataSection : Option Bytes → Bytes
  | some metadata => putU32 metadata.length ++ metadata
  | none => []

/-- The frame laid out again, section by section. -/
def PulsarFrame.layOut (frame : PulsarFrame) : Bytes :=
  putU32 frame.command.length ++ (frame.command ++
    (checksumSection frame.checksum ++ (metadataSection frame.metadata ++ frame.payload)))

/-- A metadata size that is more than the bytes behind it. -/
def MetadataCut (remaining : Bytes) : Prop :=
  4 ≤ remaining.length ∧ remaining.length < 4 + getU32 remaining

/-- What follows the command and the checksum of a frame. -/
def afterChecksum (body : Bytes) : Bytes :=
  (readChecksum ((body.drop 4).drop (getU32 body))).2

theorem read_checksum_sound (frameData : Bytes) :
    checksumSection (readChecksum frameData).1 ++ (readChecksum frameData).2 = frameData := by
  unfold readChecksum
  split_ifs with long magic
  · have width : (frameData.take 2).length = 2 := length_take_of_le (by omega)
    have isMagic : encodeBE 2 magicNumber = frameData.take 2 := by
      rw [← magic]
      nth_rewrite 1 [← width]
      exact encode_be_decode _
    have isChecksum : putU32 (getU32 (frameData.drop 2)) = (frameData.drop 2).take 4 :=
      put_get_u32 (by rw [length_drop]; omega)
    have isRest : frameData.drop 6 = (frameData.drop 2).drop 4 := by rw [drop_drop]
    rw [checksumSection, isMagic, ← getU32, isChecksum, isRest, append_assoc,
      take_append_drop, take_append_drop]
  · rfl
  · rfl

/-- The metadata size is lost if the metadata is not all there. -/
theorem read_metadata_sound_iff (remaining : Bytes) :
    metadataSection (readMetadata remaining).1 ++ (readMetadata remaining).2 = remaining ↔
      ¬MetadataCut remaining := by
  unfold readMetadata MetadataCut
  dsimp only
  split_ifs with long whole
  · rw [length_drop] at whole
    have size : (remaining.drop 4 |>.take (getU32 remaining)).length = getU32 remaining :=
      length_take_of_le (by rw [length_drop]; omega)
    refine iff_of_true ?_ (by omega)
    rw [metadataSection, size, put_get_u32 long, append_assoc, take_append_drop, take_append_drop]
  · rw [length_drop] at whole
    refine iff_of_false (fun same => ?_) (by omega)
    have lengths := congrArg length same
    rw [metadataSection, nil_append, length_drop] at lengths
    omega
  · exact iff_of_true rfl (by omega)

theorem decode_frame_sound_iff {frame : PulsarFrame} (decoded : decodeFrame body = .ok frame) :
    frame.layOut = body ↔ ¬MetadataCut (afterChecksum body) := by
  unfold decodeFrame at decoded
  dsimp only at decoded
  split_ifs at decoded with short cut
  injection decoded with isFrame
  have size : ((body.drop 4).take (getU32 body)).length = getU32 body :=
    length_take_of_le (by omega)
  have parts : body.take 4 ++ ((body.drop 4).take (getU32 body) ++
      (checksumSection (readChecksum ((body.drop 4).drop (getU32 body))).1 ++
        afterChecksum body)) = body := by
    rw [afterChecksum, read_checksum_sound, take_append_drop, take_append_drop]
  rw [← read_metadata_sound_iff, ← isFrame, PulsarFrame.layOut, size, put_get_u32 (by omega),
    Eq.congr_right parts.symm, append_cancel_left_eq, append_cancel_left_eq,
    append_cancel_left_eq]
  rfl

/-- A decoded frame is what was consumed, unless its metadata is cut short. -/
theorem decode_keeps_bytes_iff (codec : PulsarFrameCodec) (src : Bytes) :
    (∀ frame rest, decode codec src = (.ok (some frame), rest) →
      ∃ size body, src = size ++ body ++ rest ∧ size.length = 4 ∧ body.length = getU32 src ∧
        (frame.layOut = body ↔ ¬MetadataCut (afterChecksum body))) ∧
    ∀ rest, decode codec src = (.ok none, rest) →
      rest = src ∧ (src.length < 4 ∨ src.length < 4 + getU32 src) := by
  unfold decode
  dsimp only
  split_ifs with short large waiting
  · exact ⟨by simp, fun rest same => ⟨(congrArg Prod.snd same).symm, .inl short⟩⟩
  · simp
  · exact ⟨by simp, fun rest same => ⟨(congrArg Prod.snd same).symm, .inr waiting⟩⟩
  cases decoded : decodeFrame ((src.take (4 + getU32 src)).drop 4) with
  | error text => simp [Except.map]
  | ok frame =>
    refine ⟨fun found rest same => ?_, by simp [Except.map]⟩
    obtain ⟨isFrame, rfl⟩ := Prod.mk.inj same
    obtain rfl : frame = found := Option.some.inj (Except.ok.inj isFrame)
    have start : src.take 4 = (src.take (4 + getU32 src)).take 4 := by
      rw [take_take, Nat.min_eq_left (by omega)]
    refine ⟨src.take 4, _, ?_, length_take_of_le (by omega), ?_,
      decode_frame_sound_iff decoded⟩
    · rw [start, take_append_drop, take_append_drop]
    · rw [length_drop, length_take_of_le (by omega)]
      omega

theorem short_metadata_loses_size :
    ∃ frame, decode .new [0, 0, 0, 8, 0, 0, 0, 0, 0, 0, 0, 5] = (.ok (some frame), []) ∧
      frame.layOut = [0, 0, 0, 0] :=
  ⟨⟨[], none, [], none⟩, rfl, rfl⟩

theorem decode_delimits {codec frame} (limited : codec.maxFrameSize < 2 ^ 32)
    (fits : body.length ≤ codec.maxFrameSize) (decoded : decodeFrame body = .ok frame) :
    Delimits (decode codec) (putU32 body.length ++ body) frame where
  complete rest := by
    have size : getU32 (putU32 body.length ++ (body ++ rest)) = body.length :=
      get_put_u32 (by omega) _
    have whole : (putU32 body.length ++ (body ++ rest)).take (4 + body.length) =
        putU32 body.length ++ body := by
      rw [← append_assoc]
      exact take_left' (by rw [length_append, put_u32_length])
    have left : (putU32 body.length ++ (body ++ rest)).drop (4 + body.length) = rest := by
      rw [← append_assoc]
      exact drop_left' (by rw [length_append, put_u32_length])
    have long : (putU32 body.length ++ (body ++ rest)).length =
        4 + (body.length + rest.length) := by
      rw [length_append, length_append, put_u32_length]
    rw [append_assoc]
    unfold decode
    rw [if_neg (by omega)]
    rw [size, if_neg (by omega), if_neg (by omega), whole, left,
      drop_left' (put_u32_length _), decoded]
    rfl
  incomplete := by
    rintro early ⟨more, isFrame⟩ different
    have lengths := congrArg length isFrame
    rw [length_append, length_append, put_u32_length] at lengths
    have missing : more ≠ [] := by
      rintro rfl
      exact different (by rw [← isFrame, append_nil])
    have positive := length_pos_iff.mpr missing
    unfold decode
    split_ifs with short
    · rfl
    have size : getU32 early = body.length := by
      have start : (early ++ more).take 4 = early.take 4 := take_append_of_le_length (by omega)
      rw [getU32, ← start, isFrame]
      exact get_put_u32 (by omega) body
    rw [size, if_neg (by omega), if_pos (by omega)]
  nonempty empty := by
    have lengths := congrArg length empty
    rw [length_append, put_u32_length] at lengths
    simp at lengths

/-- What a connection writes: commands, and messages with their redelivery count. -/
inductive Outgoing
  | command (item : ServerCommand)
  | message (consumerId ledgerId entryId : Nat) (partition : Int) (metadata payload : Bytes)
      (redeliveryCount : Nat)

namespace Outgoing

def write (dst : Bytes) : Outgoing → Bytes
  | .command item => encode prost item dst
  | .message consumerId ledgerId entryId partition metadata payload redeliveryCount =>
    encodeMessage prost consumerId ledgerId entryId partition metadata payload redeliveryCount dst

/-- The frame of a message: the metadata is the given one, or one made up for the entry. -/
def messageFrame : PulsarFrame where
  command := prost.encode (messageCommand consumerId ledgerId entryId partition redeliveryCount)
  metadata := some
    (if metadata.isEmpty then prost.encodeMetadata (synthesizedMetadata entryId) else metadata)
  payload := payload
  checksum := none

/-- What the other side is to find. -/
def frame : Outgoing → PulsarFrame
  | .command (.message consumerId ledgerId entryId partition metadata payload) =>
    messageFrame prost consumerId ledgerId entryId partition metadata payload 0
  | .command item =>
    { command := prost.encode item.toBaseCommand
      metadata := none
      payload := []
      checksum := none }
  | .message consumerId ledgerId entryId partition metadata payload redeliveryCount =>
    messageFrame prost consumerId ledgerId entryId partition metadata payload redeliveryCount

end Outgoing

/-- The bytes are those of the frame behind their size, if they are within the limit. -/
def Framed (bytes : Bytes) (frame : PulsarFrame) : Prop :=
  ∃ body, bytes = putU32 body.length ++ body ∧
    (body.length ≤ PulsarFrameCodec.new.maxFrameSize → decodeFrame body = .ok frame)

theorem Framed.delimits {frame : PulsarFrame} (framed : Framed bytes frame)
    (fits : bytes.length ≤ 4 + PulsarFrameCodec.new.maxFrameSize) :
    Delimits (decode .new) bytes frame := by
  obtain ⟨body, rfl, decoded⟩ := framed
  rw [length_append, put_u32_length] at fits
  have within : body.length ≤ PulsarFrameCodec.new.maxFrameSize := by omega
  exact decode_delimits (by decide) within (decoded within)

theorem encode_message_append
    (consumerId ledgerId entryId partition metadata payload redeliveryCount dst) :
    encodeMessage prost consumerId ledgerId entryId partition metadata payload redeliveryCount dst =
      dst ++ encodeMessage prost consumerId ledgerId entryId partition metadata payload
        redeliveryCount [] := by
  simp only [encodeMessage, append_assoc, nil_append]

theorem write_append (dst : Bytes) (item : Outgoing) :
    item.write prost dst = dst ++ item.write prost [] := by
  cases item with
  | command item =>
    cases item
    case message => exact encode_message_append prost _ _ _ _ _ _ 0 dst
    all_goals simp only [Outgoing.write, encode, encodeCommand, append_assoc, nil_append]
  | message => exact encode_message_append prost _ _ _ _ _ _ _ dst

theorem command_framed (command : BaseCommand) : Framed (encodeCommand prost command [])
      { command := prost.encode command
        metadata := none
        payload := []
        checksum := none } := by
  refine ⟨putU32 (prost.encode command).length ++ (prost.encode command ++ []), ?_, ?_⟩
  · simp only [encodeCommand, prost.encoded_len, length_append, put_u32_length,
      append_nil, nil_append, append_assoc]
  · intro fits
    have limit : PulsarFrameCodec.new.maxFrameSize < 2 ^ 32 := by decide
    rw [length_append, length_append] at fits
    exact decode_frame_command (by omega) []

theorem message_framed (consumerId ledgerId entryId partition metadata payload redeliveryCount) :
    Framed (encodeMessage prost consumerId ledgerId entryId partition metadata payload
        redeliveryCount [])
      (Outgoing.messageFrame prost consumerId ledgerId entryId partition metadata payload
        redeliveryCount) := by
  unfold encodeMessage encodeMessageParts Outgoing.messageFrame
  generalize (if metadata.isEmpty then prost.encodeMetadata (synthesizedMetadata entryId)
    else metadata) = given
  generalize messageCommand consumerId ledgerId entryId partition redeliveryCount = command
  refine ⟨putU32 (prost.encode command).length ++
    (prost.encode command ++ (putU32 given.length ++ (given ++ payload))), ?_, ?_⟩
  · have size : 4 + (prost.encode command).length + 4 + given.length + payload.length =
        4 + ((prost.encode command).length + (4 + (given.length + payload.length))) := by omega
    simp only [prost.encoded_len, length_append, put_u32_length, size, nil_append, append_assoc]
  intro fits
  have limit : PulsarFrameCodec.new.maxFrameSize < magicNumber * 2 ^ 16 := by decide
  have word : magicNumber * 2 ^ 16 < 2 ^ 32 := by decide
  simp only [length_append] at fits
  rw [decode_frame_command (by omega), read_checksum_none (by omega) (given ++ payload),
    read_metadata_some (by omega) payload]

theorem write_framed (item : Outgoing) : Framed (item.write prost []) (item.frame prost) := by
  cases item with
  | command item =>
    cases item
    case message => exact message_framed prost _ _ _ _ _ _ 0
    all_goals exact command_framed prost _
  | message => exact message_framed prost _ _ _ _ _ _ _

theorem estimate_message_parts_size_eq
    (consumerId ledgerId entryId partition metadata payload redeliveryCount dst) :
    (encodeMessage prost consumerId ledgerId entryId partition metadata payload redeliveryCount
        dst).length =
      dst.length + estimateMessagePartsSize prost consumerId ledgerId entryId partition metadata
        payload redeliveryCount := by
  unfold encodeMessage encodeMessageParts estimateMessagePartsSize
  rw [prost.encoded_metadata_len, prost.encoded_len, ← apply_ite length]
  simp only [length_append, put_u32_length]
  omega

theorem foldl_write (items : List Outgoing) (dst : Bytes) :
    items.foldl (fun dst item => item.write prost dst) dst =
      dst ++ items.flatMap (fun item => item.write prost []) := by
  induction items generalizing dst with
  | nil => exact (append_nil dst).symm
  | cons item items ih =>
    rw [foldl_cons, ih, write_append, flatMap_cons, append_assoc]

/-- However the bytes of some commands and messages are cut, their frames are found, one
for each and in their order, and the size told for a message is the one it has. -/
theorem frames_round_trip (items : List Outgoing) (chunks : List Bytes)
    (fits : ∀ item ∈ items, (item.write prost []).length ≤ 4 + PulsarFrameCodec.new.maxFrameSize)
    (cut : chunks.flatten = items.foldl (fun dst item => item.write prost dst) []) :
    FramedRead.feedAll (decode .new) chunks = ⟨items.map (Outgoing.frame prost), none, []⟩ ∧
      ∀ consumerId ledgerId entryId partition metadata payload redeliveryCount dst,
        (encodeMessage prost consumerId ledgerId entryId partition metadata payload
            redeliveryCount dst).length =
          dst.length + estimateMessagePartsSize prost consumerId ledgerId entryId partition
            metadata payload redeliveryCount := by
  constructor
  · have delimits item (member : item ∈ items) :
        Delimits (decode .new) (item.write prost []) (item.frame prost) :=
      (write_framed prost item).delimits (fits item member)
    rw [foldl_write, nil_append] at cut
    exact FramedRead.feed_all_frames delimits rfl cut
  · exact estimate_message_parts_size_eq prost

section

variable (number : Nat)

/-- Seven bits in a byte, the lowest first. -/
def varint : Nat → Nat → Bytes
  | 0, _ => []
  | fuel + 1, value =>
    if value < 128 then [.ofNat value]
    else .ofNat (value % 128 + 128) :: varint fuel (value / 128)

def numberField (value : Int) : Bytes :=
  varint 10 (8 * number) ++ varint 10 (value % 2 ^ 64).toNat

def bytesField (bytes : Bytes) : Bytes :=
  varint 10 (8 * number + 2) ++ varint 10 bytes.length ++ bytes

def textField (text : String) : Bytes := bytesField number text.toUTF8.toList

end

def MessageIdData.fields (messageId : MessageIdData) : Bytes :=
  numberField 1 messageId.ledgerId ++ numberField 2 messageId.entryId ++
    numberField 3 messageId.partition

/-- What there is in metadata; the time of a publish is left at 0. -/
def metadataFields (metadata : MessageMetadata) : Bytes :=
  bytesField 1 metadata.producerName ++ numberField 2 metadata.sequenceId ++ numberField 3 0 ++
    (metadata.partitionKey.map (bytesField 6)).getD [] ++
    (metadata.numMessagesInBatch.map (numberField 11)).getD [] ++
    (metadata.orderingKey.map (bytesField 18)).getD []

/-- The number of a command, which is that of its field too, and the fields within. -/
def BaseCommand.fields : BaseCommand → Nat × Bytes
  | connected serverVersion protocolVersion =>
    (3, textField 1 serverVersion ++ numberField 2 protocolVersion)
  | lookupTopicResponse requestId brokerServiceUrl authoritative proxyThroughServiceUrl =>
    (24, textField 1 brokerServiceUrl ++ numberField 3 1 ++ numberField 4 requestId ++
      numberField 5 authoritative.toNat ++ numberField 8 proxyThroughServiceUrl.toNat)
  | partitionMetadataResponse requestId partitions =>
    (22, numberField 1 partitions ++ numberField 2 requestId ++ numberField 3 0)
  | sendReceipt producerId sequenceId messageId =>
    (7, numberField 1 producerId ++ numberField 2 sequenceId ++ bytesField 3 messageId.fields)
  | sendError producerId sequenceId code text =>
    (8, numberField 1 producerId ++ numberField 2 sequenceId ++ numberField 3 code ++
      textField 4 text)
  | success requestId => (13, numberField 1 requestId)
  | error requestId text => (14, numberField 1 requestId ++ numberField 2 0 ++ textField 3 text)
  | producerSuccess requestId producerName lastSequenceId schemaVersion producerReady =>
    (17, numberField 1 requestId ++ textField 2 producerName ++ numberField 3 lastSequenceId ++
      bytesField 4 schemaVersion ++ numberField 6 producerReady.toNat)
  | consumerStatsResponse requestId consumerName =>
    (26, numberField 1 requestId ++ textField 7 consumerName)
  | message consumerId messageId redeliveryCount =>
    (9, numberField 1 consumerId ++ bytesField 2 messageId.fields ++
      (redeliveryCount.map fun count => numberField 3 count).getD [])
  | ackResponse consumerId requestId => (38, numberField 1 consumerId ++ numberField 6 requestId)
  | getLastMessageIdResponse requestId lastMessageId =>
    (30, bytesField 1 lastMessageId.fields ++ numberField 2 requestId)
  | ping => (18, [])
  | pong => (19, [])

/-- What prost writes. -/
def sampleProst : Prost where
  encode := fun command => numberField 1 command.fields.1 ++
    bytesField command.fields.1 command.fields.2
  encodedLen := fun command => (numberField 1 command.fields.1 ++
    bytesField command.fields.1 command.fields.2).length
  encodeMetadata := metadataFields
  encodedMetadataLen := fun metadata => (metadataFields metadata).length
  encoded_len := fun _ => rfl
  encoded_metadata_len := fun _ => rfl

theorem sample_frames_round_trip :
    (FramedRead.feedAll (decode .new) [[0, 0, 0], [9, 0, 0, 0, 5, 8, 18, 146, 1, 0, 0, 0, 0, 31, 0],
      [0, 0, 16, 8, 9, 74, 12, 8, 1, 18, 6, 8, 2, 16, 3, 24, 0, 24, 4, 0, 0, 0, 6, 10, 0, 16, 3],
      [24, 0, 5]]).items = [⟨[8, 18, 146, 1, 0], none, [], none⟩,
          ⟨[8, 9, 74, 12, 8, 1, 18, 6, 8, 2, 16, 3, 24, 0, 24, 4], some [10, 0, 16, 3, 24, 0], [5],
            none⟩] := by
  have found := (frames_round_trip sampleProst [.command .ping, .message 1 2 3 0 [] [5] 4]
    [[0, 0, 0], [9, 0, 0, 0, 5, 8, 18, 146, 1, 0, 0, 0, 0, 31, 0],
      [0, 0, 16, 8, 9, 74, 12, 8, 1, 18, 6, 8, 2, 16, 3, 24, 0, 24, 4, 0, 0, 0, 6, 10, 0, 16, 3],
      [24, 0, 5]] (by decide) (by decide)).1
  rw [found]
  rfl

end PulsarLite.Proto
