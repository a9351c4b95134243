import PulsarLite.Storage.RangeReads

/-!
# Seeks by publish time

The target of a seek by time is found in a scan over the messages of the topic: the
message after the last one that was published earlier, up to the first that was not.
Messages without a publish time are passed. The scan reads from a position with the
partition `-1`, so the last message is not seen if its partition is lower.
-/

namespace PulsarLite.Storage.PublishTimeSeek

open Library Option ManagedCursorState

open RocksDbManagedLedgerStorage RocksDBManagedLedger StoredManagedLedgerInfo RangeReads Seek

variable {α : Type} (time : α → Option Nat) (publishTime : Nat) {entries before after : List α}
  {entry : α}

/-- The loop of `find_message_id_by_publish_time`, with the index it has come to. -/
def lastEarlier : List α → Nat → Option Nat → Option Nat
  | [], _, found => found
  | entry :: rest, index, found =>
    match time entry with
    | some published =>
      if published < publishTime then lastEarlier rest (index + 1) (some index) else found
    | none => lastEarlier rest (index + 1) found

def findTarget (entries : List α) : Option α :=
  match lastEarlier time publishTime entries 0 none with
  | none => entries[0]?
  | some index => entries[index + 1]?

def Early (entry : α) : Prop := ∃ published, time entry = some published ∧ published < publishTime

def Late (entry : α) : Prop := ∃ published, time entry = some published ∧ publishTime ≤ published

/-- How many entries come before the target. -/
def cut : List α → Nat
  | [] => 0
  | entry :: rest =>
    match time entry with
    | some published => if published < publishTime then cut rest + 1 else 0
    | none => if cut rest = 0 then 0 else cut rest + 1

variable {time publishTime}

theorem last_earlier_eq (entries index found) : lastEarlier time publishTime entries index found =
      if cut time publishTime entries = 0 then found
      else some (index + cut time publishTime entries - 1) := by
  induction entries generalizing index found with
  | nil => rfl
  | cons entry rest ih =>
    rw [lastEarlier, cut]
    cases time entry with
    | some published =>
      by_cases early : published < publishTime
      · simp only [early, if_true, ih, Nat.succ_ne_zero, if_false]
        split_ifs with zero
        · rw [zero]
          rfl
        · rw [some.injEq]
          omega
      · simp [early]
    | none =>
      by_cases zero : cut time publishTime rest = 0
      · simp [ih, zero]
      · simp only [ih, zero, if_false, Nat.succ_ne_zero, some.injEq]
        omega

theorem find_target_eq (entries : List α) :
    findTarget time publishTime entries = entries[cut time publishTime entries]? := by
  rw [findTarget, last_earlier_eq]
  split_ifs with none
  · rw [none]
  · dsimp only
    congr 1
    omega

theorem cut_le_length (entries : List α) : cut time publishTime entries ≤ entries.length := by
  induction entries with
  | nil => exact le_refl 0
  | cons entry rest ih =>
    rw [cut, List.length_cons]
    split
    all_goals split_ifs <;> omega

theorem not_late_of_mem_take (member : entry ∈ entries.take (cut time publishTime entries)) :
    ¬ Late time publishTime entry := by
  induction entries with
  | nil => simp at member
  | cons first rest ih =>
    rw [cut] at member
    rintro ⟨published, isTime, late⟩
    cases found : time first with
    | some other =>
      simp only [found] at member
      split_ifs at member with early
      · obtain rfl | inRest := List.mem_cons.mp member
        · rw [found, some.injEq] at isTime
          omega
        · exact ih inRest ⟨published, isTime, late⟩
      · simp at member
    | none =>
      simp only [found] at member
      split_ifs at member with none
      · simp at member
      · obtain rfl | inRest := List.mem_cons.mp member
        · rw [found] at isTime
          cases isTime
        · exact ih inRest ⟨published, isTime, late⟩

theorem lt_cut_of_early (split : entries = before ++ entry :: after)
    (clean : ∀ other ∈ before, ¬ Late time publishTime other)
    (early : Early time publishTime entry) :
    before.length < cut time publishTime entries := by
  induction before generalizing entries with
  | nil =>
    obtain ⟨published, isTime, earlier⟩ := early
    rw [split, List.nil_append, cut, isTime]
    simp [earlier]
  | cons first before ih =>
    have inner := ih rfl fun other member => clean other (List.mem_cons_of_mem _ member)
    have notLate := clean first List.mem_cons_self
    rw [split, List.cons_append, cut, List.length_cons]
    cases found : time first with
    | some published =>
      by_cases earlier : published < publishTime
      · simp only [earlier, if_true]
        omega
      · exact absurd ⟨published, found, not_lt.mp earlier⟩ notLate
    | none =>
      dsimp only
      rw [if_neg (by omega)]
      omega

theorem mem_take_of_split {count : Nat}
    (split : entries = before ++ entry :: after) (short : before.length < count) :
    entry ∈ entries.take count := by
  rw [List.mem_take_iff_getElem]
  exact ⟨before.length, by simp only [split, List.length_append, List.length_cons]; omega,
    by simp [split]⟩

theorem cut_map {β : Type} (change : β → α) (entries : List β) :
    cut time publishTime (entries.map change) = cut (fun entry => time (change entry)) publishTime
      entries := by
  induction entries with
  | nil => rfl
  | cons entry rest ih => rw [List.map_cons, cut, cut, ih]

def messageEntries (ledger : RocksDBManagedLedger) (db : Db) (entryLog : EntryLogStore) :
    Except EntryLogStore.ReadFailure (List StoredMessage) :=
  match ledger.info.firstPosition (-1) with
  | none => .ok []
  | some start => ledger.readEntriesFrom db entryLog start ledger.info.totalEntries

/-- Errors are logged, and no message is found. -/
def getMessageEntries (topic : Text) (storage : RocksDbManagedLedgerStorage) :
    List StoredMessage × RocksDbManagedLedgerStorage :=
  match topicLedger topic storage with
  | (.error _, storage) => ([], storage)
  | (.ok ledger, storage) =>
    match messageEntries ledger storage.db storage.entryLog with
    | .ok entries => (entries, storage)
    | .error _ => ([], storage)

variable (decode : Bytes → Option Nat)

def decodePublishTime (metadata : Bytes) : Option Nat :=
  if metadata = [] then none else decode metadata

def timeOf (message : StoredMessage) : Option Nat :=
  decodePublishTime decode message.metadata

def findMessageIdByPublishTime (topic : Text) (publishTime : Nat)
    (storage : RocksDbManagedLedgerStorage) : Option MessageId × RocksDbManagedLedgerStorage :=
  let (entries, storage) := getMessageEntries topic storage
  if entries = [] then (none, storage)
  else ((findTarget (timeOf decode) publishTime entries).map (·.messageId), storage)

inductive SeekError
  | noMessage (publishTime : Nat) (topic : Text)
  | failed (error : String)

variable (topic subscription : Text) (publishTime : Nat) (storage : RocksDbManagedLedgerStorage)

def seekByPublishTime :
    Except SeekError (Option ManagedLedgerPosition) × RocksDbManagedLedgerStorage :=
  match findMessageIdByPublishTime decode topic publishTime storage with
  | (none, storage) => (.error (.noMessage publishTime topic), storage)
  | (some messageId, storage) =>
    let (result, storage) := seekToMessageId topic subscription messageId storage
    (result.mapError .failed, storage)

def entryTime (entry : ManagedLedgerPosition × Item) : Option Nat :=
  timeOf decode (messageOf entry)

variable (log : CommittedLog)

def PublishTimePost : Prop :=
  match seekByPublishTime decode topic subscription publishTime storage with
  | (.ok _, after) => ∃ acked pending, log = acked ++ pending ∧
      (∀ entry ∈ log, (isAcknowledged topic subscription entry.1.toMessageId after).1 = true ↔
        entry ∈ acked) ∧
      (∀ entry ∈ acked, ¬ Late (entryTime decode) publishTime entry) ∧
      ∀ before entry rest, log = before ++ entry :: rest →
        (∀ other ∈ before, ¬ Late (entryTime decode) publishTime other) →
        Early (entryTime decode) publishTime entry → entry ∈ acked
  | (.error (.noMessage _ _), after) =>
    cursorState topic subscription after = cursorState topic subscription storage ∧
      ∀ entry ∈ log, ¬ Late (entryTime decode) publishTime entry
  | (.error (.failed _), _) => True

/-- Exactly when it keeps the promise: the cursor cannot be read and there is a target, the
last message is not hidden, or the messages before it decide. -/
def PublishTimeSound : Prop :=
  (∀ last ∈ log.getLast?, -1 ≤ last.1.partition) ∨
    (∃ entry ∈ log.dropLast, Late (entryTime decode) publishTime entry) ∨
    match findTarget (entryTime decode) publishTime log.dropLast with
    | none => ∀ last ∈ log.getLast?, ¬ Late (entryTime decode) publishTime last
    | some _ => (∃ error, cursorState topic subscription storage = .error error) ∨
        ∀ last ∈ log.getLast?, ¬ Early (entryTime decode) publishTime last

section

variable {decode : Bytes → Option Nat} {topic subscription : Text} {publishTime : Nat}
  {storage : RocksDbManagedLedgerStorage} {ledger : RocksDBManagedLedger}
  {log early seen : CommittedLog} {last : ManagedLedgerPosition × Item}
  (serving : Serving topic storage ledger log) (encodable : ledger.info.Encodable)
include serving encodable

/-- The scan sees the log, without a last message that its partition hides. -/
theorem message_entries_eq (retrievable : Retrievable storage log)
    (isLast : log = early ++ [last]) :
    getMessageEntries topic storage =
      ((if -1 ≤ last.1.partition then log else early).map messageOf, storage) := by
  have accounts := serving.settled.accounts
  have lastMember : last ∈ log := by simp [isLast]
  have stores := accounts.stored lastMember
  have total := length_eq_total accounts
  have positive : ledger.info.totalEntries ≠ 0 := by
    rw [← total, isLast]
    simp
  cases found : ledger.info.firstPosition (-1) with
  | none => exact absurd stores (first_position_none found last.1)
  | some start =>
    obtain ⟨startStores, free, least⟩ := first_position_some accounts.ordered found
    have read := read_stored serving encodable retrievable (lac_of_last serving isLast) positive
      startStores
    have whole : atOrAfter start log = log := by
      rw [atOrAfter, List.filter_eq_self]
      intro entry member
      exact decide_eq_true (least entry.1 (accounts.stored member))
    have increasing := accounts.increasing
    rw [isLast] at increasing
    have entries : reachable (-1) last.1 log = if -1 ≤ last.1.partition then log else early := by
      rw [isLast]
      exact reachable_all increasing
    have fewer : (if -1 ≤ last.1.partition then log else early).length ≤
        ledger.info.totalEntries := by
      rw [← total]
      split_ifs
      · exact le_refl _
      · simp [isLast]
    rw [free, whole, entries, List.take_of_length_le fewer] at read
    simp only [RocksDbManagedLedgerStorage.readEntriesFrom,
      topic_ledger_cached serving.cached] at read
    simp only [getMessageEntries, topic_ledger_cached serving.cached, messageEntries, found]
    cases answer : ledger.readEntriesFrom storage.db storage.entryLog start
        ledger.info.totalEntries with
    | error failure =>
      rw [answer] at read
      cases read
    | ok messages =>
      rw [answer] at read
      cases read
      rfl

theorem seek_by_seen (entries : getMessageEntries topic storage = (seen.map messageOf, storage))
    (isFirst : ∃ rest, log = seen ++ rest) :
    PublishTimePost decode topic subscription publishTime storage log ↔
      match findTarget (entryTime decode) publishTime seen with
      | none => ∀ entry ∈ log, ¬ Late (entryTime decode) publishTime entry
      | some _ => (∃ error, cursorState topic subscription storage = .error error) ∨
          ∀ before entry rest, log = before ++ entry :: rest →
            (∀ other ∈ before, ¬ Late (entryTime decode) publishTime other) →
            Early (entryTime decode) publishTime entry →
              entry ∈ log.take (cut (entryTime decode) publishTime seen) := by
  have accounts := serving.settled.accounts
  have mapped : cut (timeOf decode) publishTime (seen.map messageOf) =
    cut (entryTime decode) publishTime seen := cut_map messageOf seen
  have found : findMessageIdByPublishTime decode topic publishTime storage =
      ((findTarget (entryTime decode) publishTime seen).map fun entry => entry.1.toMessageId,
        storage) := by
    simp only [findMessageIdByPublishTime, entries, List.map_eq_nil_iff]
    rw [find_target_eq, find_target_eq, mapped, List.getElem?_map]
    split_ifs with empty
    · rw [empty]
      rfl
    · rw [map_map]
      rfl
  rw [PublishTimePost, seekByPublishTime, found]
  cases target : findTarget (entryTime decode) publishTime seen with
  | none => simp
  | some entry =>
    rw [find_target_eq] at target
    obtain ⟨rest, isLog⟩ := isFirst
    obtain ⟨bound, isEntry⟩ := List.getElem?_eq_some_iff.mp target
    have member : entry ∈ log := by
      rw [isLog]
      exact List.mem_append_left _ (List.mem_of_getElem? target)
    have below : ∀ other ∈ log, (other.1.slot < entry.1.slot ↔
        other ∈ log.take (cut (entryTime decode) publishTime seen)) := by
      have here : log[cut (entryTime decode) publishTime seen]? = some entry := by
        rw [isLog, List.getElem?_append_left bound, target]
      obtain ⟨inLog, isHere⟩ := List.getElem?_eq_some_iff.mp here
      have increasing := List.pairwise_iff_getElem.mp accounts.increasing
      intro other otherMember
      obtain ⟨index, indexBound, rfl⟩ := List.mem_iff_getElem.mp otherMember
      rw [List.mem_take_iff_getElem]
      constructor
      · intro before
        refine ⟨index, ?_, rfl⟩
        by_contra far
        have reached : cut (entryTime decode) publishTime seen ≤ index := by omega
        obtain later | same := Nat.lt_or_eq_of_le reached
        · have order := increasing _ index inLog indexBound later
          rw [isHere] at order
          exact absurd before order.not_gt
        · subst same
          rw [isHere] at before
          exact absurd before (lt_irrefl _)
      · rintro ⟨place, placeBound, same⟩
        have order := increasing place _ (by omega) inLog (by omega)
        rw [isHere, same] at order
        exact order
    have readable : Readable entry.1.toMessageId := by
      obtain ⟨ledgerBound, entryBound⟩ := stores_bounds encodable (accounts.stored member)
      exact .inr ⟨ledgerBound, entryBound.le⟩
    obtain ⟨lac, isLac, _⟩ := serving.settled.le_lac member
    cases read : cursorState topic subscription storage with
    | error error => simp [seek_error serving read, Except.mapError]
    | ok state =>
      simp only [map_some, seek_ok serving read, isLac,
        decode_encode (sought_well_formed encodable readable), Except.map,
        Except.mapError, reduceCtorEq, exists_false, false_or]
      have acknowledged : ∀ other ∈ log, (isAcknowledged topic subscription other.1.toMessageId
          (writeCursor topic subscription (encode
            (soughtState ledger.info entry.1.toMessageId)) storage)).1 = true ↔
          other ∈ log.take (cut (entryTime decode) publishTime seen) := by
        intro other otherMember
        rw [sought_acknowledged serving encodable readable otherMember]
        exact below other otherMember
      constructor
      · rintro ⟨acked, pending, parts, isAcked, _, early⟩ before other rest split clean isEarly
        have otherMember : other ∈ log := by simp [split]
        rw [← acknowledged other otherMember, isAcked other otherMember]
        exact early before other rest split clean isEarly
      intro early
      refine ⟨_, _, (List.take_append_drop _ log).symm, acknowledged, ?_, early⟩
      intro other inside
      rw [isLog, List.take_append_of_le_length (cut_le_length seen)] at inside
      exact not_late_of_mem_take inside

end

/-- For every history of a topic whose entries can be read, every cursor and every time: the
promise is kept exactly under the stated condition. -/
theorem publish_time_post_iff (decode : Bytes → Option Nat) (topic subscription : Text)
    (publishTime : Nat) (storage : RocksDbManagedLedgerStorage) (log : CommittedLog)
    (history : TopicHistory topic storage log) (retrievable : Retrievable storage log) :
    PublishTimePost decode topic subscription publishTime storage log ↔
      PublishTimeSound decode topic subscription publishTime storage log := by
  obtain ⟨ledger, serving, encodable⟩ := history.serving
  obtain rfl | ⟨early, last, isLast⟩ := List.eq_nil_or_concat' log
  · have nothing : getMessageEntries topic storage =
        (([] : CommittedLog).map messageOf, storage) := by
      have isLac : ledger.lac = none := serving.settled.lac
      simp only [getMessageEntries, topic_ledger_cached serving.cached, messageEntries]
      cases ledger.info.firstPosition (-1) with
      | none => rfl
      | some start => simp [RocksDBManagedLedger.readEntriesFrom, isLac]
    rw [seek_by_seen serving encodable nothing ⟨[], rfl⟩]
    simp [PublishTimeSound, findTarget, lastEarlier]
  have atLast : log.getLast? = some last := by rw [isLast, List.getLast?_concat]
  have entries := message_entries_eq serving encodable retrievable isLast
  have isEarly : log.dropLast = early := by rw [isLast, List.dropLast_concat]
  simp only [PublishTimeSound, atLast, isEarly, mem_def, some.injEq, forall_eq']
  by_cases visible : -1 ≤ last.1.partition
  · rw [if_pos visible] at entries
    rw [seek_by_seen serving encodable entries ⟨[], (List.append_nil log).symm⟩]
    refine iff_of_true ?_ (.inl visible)
    cases target : findTarget (entryTime decode) publishTime log with
    | none =>
      intro entry member
      rw [find_target_eq, List.getElem?_eq_none_iff] at target
      have inside : entry ∈ log.take (cut (entryTime decode) publishTime log) := by
        rw [List.take_of_length_le target]
        exact member
      exact not_late_of_mem_take inside
    | some entry =>
      right
      intro before entry rest split clean isEarlier
      exact mem_take_of_split split (lt_cut_of_early split clean isEarlier)
  rw [if_neg visible] at entries
  rw [seek_by_seen serving encodable entries ⟨[last], isLast⟩]
  simp only [visible, false_or]
  have short : cut (entryTime decode) publishTime early ≤ early.length := cut_le_length early
  -- an entry before the last one is where the scan says
  have inside before entry rest : log = before ++ entry :: rest → rest ≠ [] →
      (∀ other ∈ before, ¬ Late (entryTime decode) publishTime other) →
      Early (entryTime decode) publishTime entry →
        entry ∈ log.take (cut (entryTime decode) publishTime early) := by
    intro split more clean isEarlier
    have shorter : early = before ++ entry :: rest.dropLast := by
      rw [← isEarly, split, List.dropLast_append_of_ne_nil (by simp),
        List.dropLast_cons_of_ne_nil more]
    rw [isLast, List.take_append_of_le_length short]
    exact mem_take_of_split shorter (lt_cut_of_early shorter clean isEarlier)
  cases target : findTarget (entryTime decode) publishTime early with
  | none =>
    rw [find_target_eq, List.getElem?_eq_none_iff] at target
    have clean entry (member : entry ∈ early) : ¬ Late (entryTime decode) publishTime entry := by
      have taken : entry ∈ early.take (cut (entryTime decode) publishTime early) := by
        rw [List.take_of_length_le target]
        exact member
      exact not_late_of_mem_take taken
    constructor
    · intro none
      exact .inr (none last (by simp [isLast]))
    rintro (⟨entry, member, late⟩ | notLate) other inLog
    · exact absurd late (clean entry member)
    rw [isLast] at inLog
    obtain inEarly | isHere := List.mem_append.mp inLog
    · exact clean other inEarly
    · rw [List.mem_singleton.mp isHere]
      exact notLate
  | some entry =>
    constructor
    · rintro (unreadable | all)
      · exact .inr (.inl unreadable)
      by_cases late : ∃ entry ∈ early, Late (entryTime decode) publishTime entry
      · exact .inl late
      refine .inr (.inr fun isEarlier => ?_)
      have taken := all early last [] isLast
        (fun other member isLate => late ⟨other, member, isLate⟩) isEarlier
      rw [isLast, List.take_append_of_le_length short] at taken
      have increasing := serving.settled.accounts.increasing
      rw [isLast, List.pairwise_append] at increasing
      exact absurd (increasing.2.2 last (List.mem_of_mem_take taken) last
        (List.mem_singleton_self _)) (lt_irrefl _)
    · intro sound
      obtain ⟨other, member, late⟩ | unreadable | notEarly := sound
      · refine .inr fun before entry rest split clean isEarlier => ?_
        refine inside before entry rest split ?_ clean isEarlier
        rintro rfl
        have same : before = early := by rw [← isEarly, split, List.dropLast_concat]
        exact clean other (same ▸ member) late
      · exact .inl unreadable
      refine .inr fun before entry rest split clean isEarlier => ?_
      refine inside before entry rest split ?_ clean isEarlier
      rintro rfl
      have same : last = entry := by
        rw [split, List.getLast?_concat, some.injEq] at atLast
        exact atLast.symm
      exact notEarly (same ▸ isEarlier)

/-- The field 3 of metadata with a producer name of one letter and a small sequence id. -/
def samplePublishTime : Bytes → Option Nat
  | [10, 1, _, 16, _, 24, time] => some time.toNat
  | _ => none

/-- A seek to the time at which all three messages were published. -/
theorem seek_to_time_one :
    PublishTimePost samplePublishTime sampleTopic sampleSubscription 1 threeMessages threeLog :=
  (publish_time_post_iff samplePublishTime sampleTopic sampleSubscription 1 threeMessages threeLog
    history_three_messages (by decide)).mpr (.inl (by decide))

def lowMessage : Item := { sampleMessage with partition := -2 }

def lowMessages : RocksDbManagedLedgerStorage :=
  (appendMessages .none sampleTopic [lowMessage] sampleStorage).2

def lowLog : CommittedLog := [({ ledgerId := 0, entryId := 0, partition := -2 }, lowMessage)]

/-- The only message has the partition `-2` and was published at the time of the seek; no
target is found. -/
theorem late_message_not_found :
    seekByPublishTime samplePublishTime sampleTopic sampleSubscription 1 lowMessages =
      (.error (.noMessage 1 sampleTopic), lowMessages) ∧
    ¬ PublishTimePost samplePublishTime sampleTopic sampleSubscription 1 lowMessages lowLog := by
  have result : seekByPublishTime samplePublishTime sampleTopic sampleSubscription 1 lowMessages =
      (.error (.noMessage 1 sampleTopic), lowMessages) := rfl
  refine ⟨result, ?_⟩
  rintro ⟨_, clean⟩
  exact clean _ (List.mem_singleton_self _) ⟨1, rfl, le_refl 1⟩

end PulsarLite.Storage.PublishTimeSeek
