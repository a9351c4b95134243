import Mathlib.Logic.Function.Basic
import PulsarLite.Storage.Store

/-!
# The in-memory storage

The other backend of the broker keeps the messages of each topic in one ledger,
the metadata of all messages in one map, and the cursors in two maps under keys
made of topic and subscription: plain marks for exclusive subscriptions, with
`u64::MAX` for none, and cursors with holes for shared ones. The additions on
`u64` wrap, as in a release build; the ledger ids are counted without a bound.
-/

namespace PulsarLite.Storage

open Library Function ManagedLedgerPosition

instance : Succ Nat where
  succ value := if value + 1 < u64Modulus then some (value + 1) else none

def u64Max : Nat := u64Modulus - 1

structure SubscriptionCursor where
  markDelete : Option Nat
  ackedHoles : RangeSet Nat
deriving DecidableEq

namespace SubscriptionCursor

def default : SubscriptionCursor where
  markDelete := none
  ackedHoles := .empty

end SubscriptionCursor

def isMessageAcknowledged (cursor : Option SubscriptionCursor) (entry : Nat) : Bool :=
  match cursor with
  | none => false
  | some cursor =>
    (match cursor.markDelete with
      | some markDelete => decide (entry ≤ markDelete)
      | none => false) || cursor.ackedHoles.contains entry

/-- Every pass takes one range out of the set, so their number bounds the loop. -/
def advanceMarkDelete : Nat → SubscriptionCursor → SubscriptionCursor
  | 0, cursor => cursor
  | fuel + 1, cursor =>
    let nextExpected := match cursor.markDelete with
      | none => 0
      | some markDelete => (markDelete + 1) % u64Modulus
    match cursor.ackedHoles.takeCovering nextExpected with
    | some (stop, rest) =>
      advanceMarkDelete fuel { markDelete := some stop, ackedHoles := rest }
    | none => cursor

def ackShared (cursor : SubscriptionCursor) (entry : Nat) : SubscriptionCursor :=
  let advanced := advanceMarkDelete cursor.ackedHoles.ranges.elements.length
    { cursor with markDelete := some entry }
  let holed := { cursor with ackedHoles := cursor.ackedHoles.insert entry }
  if isMessageAcknowledged (some cursor) entry then cursor
  else
    match cursor.markDelete with
    | none => if entry = 0 then advanced else holed
    | some markDelete =>
      let next := (markDelete + 1) % u64Modulus
      if entry = next then advanced
      else if next < entry then holed
      else cursor

def cursorSubscriptionKey (topic subscription : Text) : Text := topic ++ [':'] ++ subscription

def positionAtOrAfter (candidate start : ManagedLedgerPosition) : Bool :=
  decide (start.slot ≤ candidate.slot)

def firstUnackedFromMessages (isAcknowledged : MessageId → Bool) :
    List (MessageId × Bytes) → Option ManagedLedgerPosition
  | [] => none
  | (messageId, _) :: rest =>
    if isAcknowledged messageId then firstUnackedFromMessages isAcknowledged rest
    else some messageId.toPosition

/-- The limit is looked at after a message has been taken. -/
def readFromMessages (start : ManagedLedgerPosition) (limit : Nat) :
    List (MessageId × Bytes) → List (MessageId × Bytes) → List (MessageId × Bytes)
  | [], out => out
  | message :: rest, out =>
    if positionAtOrAfter message.1.toPosition start then
      if limit ≤ (out ++ [message]).length then out ++ [message]
      else readFromMessages start limit rest (out ++ [message])
    else readFromMessages start limit rest out

def lastPositionFromMessages (messages : List (MessageId × Bytes)) : Option ManagedLedgerPosition :=
  messages.getLast?.map fun message => message.1.toPosition

structure InMemoryManagedLedger where
  ledgerId : Nat
  entries : List (MessageId × Bytes)
deriving DecidableEq

namespace InMemoryManagedLedger

def new (ledgerId : Nat) : InMemoryManagedLedger where
  ledgerId := ledgerId
  entries := []

def addEntryInPlace (ledger : InMemoryManagedLedger) (partition : Int) (payload : Bytes) :
    MessageId × InMemoryManagedLedger :=
  let messageId : MessageId := {
    ledger := ledger.ledgerId
    entry := ledger.entries.length
    partition := partition }
  (messageId, { ledger with entries := ledger.entries ++ [(messageId, payload)] })

end InMemoryManagedLedger

structure InMemoryManagedLedgerFactory where
  ledgers : Text → Option InMemoryManagedLedger
  nextLedgerId : Nat

namespace InMemoryManagedLedgerFactory

def new : InMemoryManagedLedgerFactory where
  ledgers := fun _ => none
  nextLedgerId := 0

variable (factory : InMemoryManagedLedgerFactory)

def ensureLedger (name : Text) : InMemoryManagedLedger × InMemoryManagedLedgerFactory :=
  match factory.ledgers name with
  | some ledger => (ledger, factory)
  | none =>
    let ledger := .new factory.nextLedgerId
    (ledger, {
      ledgers := update factory.ledgers name (some ledger)
      nextLedgerId := factory.nextLedgerId + 1 })

variable (topic : Text)

def appendEntry (partition : Int) (data : Bytes) : MessageId × InMemoryManagedLedgerFactory :=
  let ensured := factory.ensureLedger topic
  let added := ensured.1.addEntryInPlace partition data
  (added.1, { ensured.2 with
    ledgers := update ensured.2.ledgers topic (some added.2) })

def messages : Option (List (MessageId × Bytes)) :=
  (factory.ledgers topic).map InMemoryManagedLedger.entries

/-- The entry number is tried as an index before the list is searched. -/
def getMessageById (messageId : MessageId) : Option (MessageId × Bytes) :=
  match factory.messages topic with
  | none => none
  | some messages =>
    match messages[messageId.entry]? with
    | some message =>
      if message.1 = messageId then some message
      else messages.find? fun message => decide (message.1 = messageId)
    | none => messages.find? fun message => decide (message.1 = messageId)

end InMemoryManagedLedgerFactory

structure InMemoryManagedLedgerStorage where
  factory : InMemoryManagedLedgerFactory
  cursors : Text → Option Nat
  subscriptionCursors : Text → Option SubscriptionCursor
  entryMetadata : MessageId → Option Bytes

namespace InMemoryManagedLedgerStorage

def new : InMemoryManagedLedgerStorage where
  factory := .new
  cursors := fun _ => none
  subscriptionCursors := fun _ => none
  entryMetadata := fun _ => none

variable (storage : InMemoryManagedLedgerStorage)

def cursorExists (key : Text) : Bool :=
  (storage.cursors key).isSome || (storage.subscriptionCursors key).isSome

def messages (storage : InMemoryManagedLedgerStorage) (topic : Text) : List (MessageId × Bytes) :=
  (storage.factory.messages topic).getD []

def storedMessage (message : MessageId × Bytes) : StoredMessage where
  messageId := message.1
  metadata := (storage.entryMetadata message.1).getD []
  payload := message.2

variable (topic subscription : Text) (messageId : MessageId)

def isAcknowledged : Bool :=
  let key := cursorSubscriptionKey topic subscription
  match storage.subscriptionCursors key with
  | some shared => isMessageAcknowledged (some shared) messageId.entry
  | none =>
    let markDelete := (storage.cursors key).getD u64Max
    decide (markDelete ≠ u64Max) && decide (messageId.entry ≤ markDelete)

def insertCursor (key : Text) (markDelete : Nat) : InMemoryManagedLedgerStorage :=
  { storage with cursors := update storage.cursors key (some markDelete) }

def ensureExclusiveCursor (key : Text) : InMemoryManagedLedgerStorage :=
  match storage.cursors key with
  | some _ => storage
  | none => storage.insertCursor key u64Max

def applyLatestExclusive (key topic : Text) : InMemoryManagedLedgerStorage :=
  match lastPositionFromMessages (storage.messages topic) with
  | some last => storage.insertCursor key last.entryId
  | none => storage.ensureExclusiveCursor key

def applyStartMessageIdExclusive (key : Text) (start : MessageId) : InMemoryManagedLedgerStorage :=
  if 0 < start.entry then storage.insertCursor key (start.entry - 1)
  else storage.ensureExclusiveCursor key

def createTopic (name : Text) : InMemoryManagedLedgerStorage :=
  { storage with factory := (storage.factory.ensureLedger name).2 }

def appendMessageWithMetadata (topic : Text)
    (partition : Int) (metadata payload : Bytes) : MessageId × InMemoryManagedLedgerStorage :=
  let appended := storage.factory.appendEntry topic partition payload
  (appended.1, { storage with
    factory := appended.2
    entryMetadata :=
      if metadata.isEmpty then storage.entryMetadata
      else update storage.entryMetadata appended.1 (some metadata) })

def firstUnackedPosition : Option ManagedLedgerPosition :=
  firstUnackedFromMessages (storage.isAcknowledged topic subscription) (storage.messages topic)

variable (options : CursorInitOptions)

def createCursor : InMemoryManagedLedgerStorage :=
  let key := cursorSubscriptionKey topic subscription
  match options.startMessageId with
  | some start => storage.applyStartMessageIdExclusive key start
  | none =>
    match options.initialPosition with
    | .latest => storage.applyLatestExclusive key topic
    | .earliest => storage.ensureExclusiveCursor key

def initializeOrOpenCursor : CursorOpenResult × InMemoryManagedLedgerStorage :=
  if storage.cursorExists (cursorSubscriptionKey topic subscription) then
    ({ created := false, firstUnacked := storage.firstUnackedPosition topic subscription }, storage)
  else
    let created := storage.createCursor topic subscription options
    ({ created := true, firstUnacked := created.firstUnackedPosition topic subscription }, created)

def deleteCursor : InMemoryManagedLedgerStorage :=
  let key := cursorSubscriptionKey topic subscription
  { storage with
    cursors := update storage.cursors key none
    subscriptionCursors := update storage.subscriptionCursors key none }

/-- The last message before the target, among those that come before it in the list. -/
def previousOf (topic : Text) (messageId : MessageId) : Option ManagedLedgerPosition :=
  (((storage.messages topic).map fun message => message.1.toPosition).takeWhile fun position =>
    decide (position < messageId.toPosition)).getLast?

def seekCursor (shared : Bool) : InMemoryManagedLedgerStorage :=
  let key := cursorSubscriptionKey topic subscription
  let previous := storage.previousOf topic messageId
  if shared then
    { storage with
      cursors := update storage.cursors key none
      subscriptionCursors := update storage.subscriptionCursors key (some {
        markDelete := previous.map entryId
        ackedHoles := .empty }) }
  else
    { storage with
      cursors := update storage.cursors key
        (some ((previous.map entryId).getD u64Max))
      subscriptionCursors := update storage.subscriptionCursors key none }

def ackMessage : InMemoryManagedLedgerStorage :=
  storage.insertCursor (cursorSubscriptionKey topic subscription) messageId.entry

def ackMessageShared : InMemoryManagedLedgerStorage :=
  let key := cursorSubscriptionKey topic subscription
  { storage with
    subscriptionCursors := update storage.subscriptionCursors key
      (some (ackShared ((storage.subscriptionCursors key).getD .default)
        messageId.entry)) }

def readEntriesFrom (topic : Text)
    (start : ManagedLedgerPosition) (limit : Nat) : List StoredMessage :=
  (readFromMessages start limit (storage.messages topic) []).map storage.storedMessage

def getMessageEntryById (topic : Text) (messageId : MessageId) : Option StoredMessage :=
  (storage.factory.getMessageById topic messageId).map storage.storedMessage

def isAcknowledgedShared : Bool :=
  isMessageAcknowledged (storage.subscriptionCursors (cursorSubscriptionKey topic subscription))
    messageId.entry

def backlogEntries : Nat :=
  let key := cursorSubscriptionKey topic subscription
  let total := (storage.messages topic).length
  match storage.subscriptionCursors key with
  | some cursor =>
    total - match cursor.markDelete with
      | none => 0
      | some mark => (mark + 1) % u64Modulus
  | none =>
    match storage.cursors key with
    | some mark => if mark ≠ u64Max then total - (mark + 1) % u64Modulus else total
    | none => total

inductive Operation
  | createTopic
  | append (partition : Int) (metadata payload : Bytes)
  | initializeOrOpenCursor (options : CursorInitOptions)
  | ackMessage (messageId : MessageId)
  | ackMessageShared (messageId : MessageId)
  | seekCursor (messageId : MessageId) (shared : Bool)
  | deleteCursor
deriving DecidableEq

def Operation.OnTopic : Operation → Prop
  | createTopic => True
  | append _ _ _ => True
  | _ => False

variable (storage : InMemoryManagedLedgerStorage)

def perform : Operation → InMemoryManagedLedgerStorage
  | .createTopic => storage.createTopic topic
  | .append partition metadata payload =>
    (storage.appendMessageWithMetadata topic partition metadata payload).2
  | .initializeOrOpenCursor options =>
    (storage.initializeOrOpenCursor topic subscription options).2
  | .ackMessage messageId => storage.ackMessage topic subscription messageId
  | .ackMessageShared messageId => storage.ackMessageShared topic subscription messageId
  | .seekCursor messageId shared => storage.seekCursor topic subscription messageId shared
  | .deleteCursor => storage.deleteCursor topic subscription

inductive Query
  | readEntriesFrom (start : ManagedLedgerPosition) (limit : Nat)
  | getMessageEntryById (messageId : MessageId)
  | isAcknowledged (messageId : MessageId)
  | isAcknowledgedShared (messageId : MessageId)
  | firstUnackedPosition
  | backlogEntries
deriving DecidableEq

inductive Answer
  | entries (result : List StoredMessage)
  | message (result : Option StoredMessage)
  | acknowledged (result : Bool)
  | position (result : Option ManagedLedgerPosition)
  | backlog (result : Nat)
deriving DecidableEq

def ask : Query → Answer
  | .readEntriesFrom start limit => .entries (storage.readEntriesFrom topic start limit)
  | .getMessageEntryById messageId => .message (storage.getMessageEntryById topic messageId)
  | .isAcknowledged messageId =>
    .acknowledged (storage.isAcknowledged topic subscription messageId)
  | .isAcknowledgedShared messageId =>
    .acknowledged (storage.isAcknowledgedShared topic subscription messageId)
  | .firstUnackedPosition => .position (storage.firstUnackedPosition topic subscription)
  | .backlogEntries => .backlog (storage.backlogEntries topic subscription)

inductive Reachable : InMemoryManagedLedgerStorage → Prop
  | created : Reachable new
  | performed (topic subscription storage operation) (before : Reachable storage) :
      Reachable (perform topic subscription storage operation)

variable {storage after : InMemoryManagedLedgerStorage} {topic subscription : Text}

/-- Every topic has a ledger id of its own, which its messages carry. -/
structure Housed (storage : InMemoryManagedLedgerStorage) : Prop where
  counted : ∀ topic ledger, storage.factory.ledgers topic = some ledger →
    ledger.ledgerId < storage.factory.nextLedgerId
  apart : ∀ left right leftLedger rightLedger,
    storage.factory.ledgers left = some leftLedger →
    storage.factory.ledgers right = some rightLedger →
    leftLedger.ledgerId = rightLedger.ledgerId → left = right
  entries : ∀ topic ledger, storage.factory.ledgers topic = some ledger →
    ∀ message ∈ ledger.entries, message.1.ledger = ledger.ledgerId

theorem housed_new : Housed new where
  counted _ _ impossible := by cases impossible
  apart _ _ _ _ impossible := by cases impossible
  entries _ _ impossible := by cases impossible

variable (housed : Housed storage)
include housed

theorem Housed.of_factory (same : after.factory = storage.factory) : Housed after where
  counted := by
    rw [same]
    exact housed.counted
  apart := by
    rw [same]
    exact housed.apart
  entries := by
    rw [same]
    exact housed.entries

theorem Housed.ensure_ledger (topic : Text) : Housed (storage.createTopic topic) ∧
      (storage.createTopic topic).factory.ledgers topic =
        some (storage.factory.ensureLedger topic).1 := by
  unfold createTopic InMemoryManagedLedgerFactory.ensureLedger
  cases found : storage.factory.ledgers topic with
  | some ledger => exact ⟨housed.of_factory rfl, found⟩
  | none =>
    have old other ledger : other ≠ topic →
        update storage.factory.ledgers topic
          (some (.new storage.factory.nextLedgerId)) other = some ledger →
        storage.factory.ledgers other = some ledger := by
      intro different here
      rwa [update_of_ne different] at here
    have new ledger : update storage.factory.ledgers topic
          (some (.new storage.factory.nextLedgerId)) topic = some ledger →
        ledger = .new storage.factory.nextLedgerId := by
      intro here
      rw [update_self] at here
      exact (Option.some.inj here).symm
    refine ⟨?_, update_self _ _ _⟩
    exact {
      counted other ledger here := by
        by_cases same : other = topic
        · subst same
          rw [new ledger here]
          exact Nat.lt_succ_self _
        · exact (housed.counted other ledger (old other ledger same here)).trans
            (Nat.lt_succ_self _)
      apart left right leftLedger rightLedger leftHere rightHere ids := by
        by_cases leftSame : left = topic
        · by_cases rightSame : right = topic
          · rw [leftSame, rightSame]
          · subst leftSame
            have small :=
              housed.counted right rightLedger (old right rightLedger rightSame rightHere)
            rw [new leftLedger leftHere] at ids
            exact absurd (ids.symm ▸ small) (lt_irrefl _)
        by_cases rightSame : right = topic
        · subst rightSame
          have small := housed.counted left leftLedger (old left leftLedger leftSame leftHere)
          rw [new rightLedger rightHere] at ids
          exact absurd (ids ▸ small) (lt_irrefl _)
        · exact housed.apart left right leftLedger rightLedger
            (old left leftLedger leftSame leftHere) (old right rightLedger rightSame rightHere) ids
      entries other ledger here := by
        by_cases same : other = topic
        · subst same
          rw [new ledger here]
          intro message impossible
          cases impossible
        · exact housed.entries other ledger (old other ledger same here) }

theorem Housed.append (topic partition metadata payload) :
    Housed (storage.appendMessageWithMetadata topic partition metadata payload).2 := by
  obtain ⟨ensured, cached⟩ := housed.ensure_ledger topic
  have factory : (storage.appendMessageWithMetadata topic partition metadata payload).2.factory =
      { (storage.createTopic topic).factory with
        ledgers := update (storage.createTopic topic).factory.ledgers topic
          (some ((storage.factory.ensureLedger topic).1.addEntryInPlace partition payload).2) } :=
    rfl
  generalize storage.createTopic topic = prepared at ensured cached factory
  generalize (storage.factory.ensureLedger topic).1 = ledger at cached factory
  generalize (storage.appendMessageWithMetadata topic partition metadata payload).2 =
    after at factory
  have found other found : after.factory.ledgers other = some found →
      ∃ before, prepared.factory.ledgers other = some before ∧
        before.ledgerId = found.ledgerId ∧
        ∀ message ∈ found.entries, message ∈ before.entries ∨
          message.1.ledger = found.ledgerId := by
    intro here
    rw [factory] at here
    by_cases same : other = topic
    · subst same
      simp only [update_self, Option.some.injEq] at here
      refine ⟨ledger, cached, ?_, ?_⟩
      · rw [← here]
        rfl
      intro message member
      rw [← here] at member ⊢
      obtain old | new := List.mem_append.mp member
      · exact .inl old
      · right
        rw [List.mem_singleton.mp new]
        rfl
    · simp only [update_of_ne same] at here
      exact ⟨found, here, rfl, fun _ member => .inl member⟩
  have counter : after.factory.nextLedgerId = prepared.factory.nextLedgerId := by rw [factory]
  exact {
    counted other other' here := by
      obtain ⟨before, old, ids, _⟩ := found other other' here
      rw [← ids, counter]
      exact ensured.counted other before old
    apart left right leftLedger rightLedger leftHere rightHere same := by
      obtain ⟨leftBefore, leftOld, leftIds, _⟩ := found left leftLedger leftHere
      obtain ⟨rightBefore, rightOld, rightIds, _⟩ := found right rightLedger rightHere
      apply ensured.apart left right leftBefore rightBefore leftOld rightOld
      rw [leftIds, rightIds, same]
    entries other other' here message member := by
      obtain ⟨before, old, ids, messages⟩ := found other other' here
      obtain inside | carried := messages message member
      · rw [← ids]
        exact ensured.entries other before old message inside
      · exact carried }

end InMemoryManagedLedgerStorage

end PulsarLite.Storage
