import PulsarLite.Storage.WriteQueue

/-!
# The write queue refines its ledgers

Seen from outside, every ledger is a log, and the queue handles the requests of a
ledger one by one: a request is added at the end of the log of its ledger and is
told its position, or it is refused and leaves no trace. The worker does this for
whole groups. What it takes is that the writer of the entry log knows the end of
its file before each group; a write that failed half way leaves it in doubt.
-/

namespace PulsarLite.Storage.QueueRefinement

open Library List Keys WriteReq Groups Function
open Prod (fst)

open StoredManagedLedgerInfo RocksDBManagedLedger RocksDbManagedLedgerStorage EntryLogStore
  WriteQueue

variable {db : Db} {log : CommittedLog} {after : RocksDbManagedLedgerStorage}
  {completions : List Completion} {state before : QueueState} {group : Group}

structure OpenWith (storage : RocksDbManagedLedgerStorage) (name : Text)
    (ledger : RocksDBManagedLedger) (log : CommittedLog) : Prop where
  named : ledger.name = name
  settled : Settled ledger storage.db log
  located : Located (Holds storage.entryLog) storage.db log

structure Sound (storage : RocksDbManagedLedgerStorage) (logs : Text → CommittedLog) : Prop where
  closed : ∀ name, storage.ledgers name = none →
    storage.db (managedLedgerKey name) = none ∧ logs name = []
  opened : ∀ name ledger, storage.ledgers name = some ledger →
    OpenWith storage name ledger (logs name)
  apart : ∀ left leftLedger right rightLedger id, storage.ledgers left = some leftLedger →
    storage.ledgers right = some rightLedger → leftLedger.info.Knows id →
      rightLedger.info.Knows id → left = right
  counter : ∃ next, nextLedgerId storage.db = .ok next

theorem sound_start (files config) : Sound (openStorage .empty files config) fun _ => [] where
  closed _ _ := ⟨rfl, rfl⟩
  opened _ _ found := by cases found
  apart _ _ _ _ _ found := by cases found
  counter := ⟨0, rfl⟩

variable {storage : RocksDbManagedLedgerStorage} {logs : Text → CommittedLog} {name : Text}
  {ledger : RocksDBManagedLedger}

theorem located_extends {old new} (located : Located (Holds old) db log)
    (grown : Files.Extends old.files new.files) : Located (Holds new) db log :=
  located.weaken fun _ _ holds => holds.extends grown

theorem Sound.moved (sound : Sound storage logs) (moved : AllocatorMoved storage.db db)
    {entryLog : EntryLogStore} (grown : Files.Extends storage.entryLog.files entryLog.files) :
    Sound { storage with db := db, entryLog := entryLog } logs where
  closed name missing := by
    have before := sound.closed name missing
    exact ⟨(moved.frame _ (ledger_key_ne_allocator_key name)).trans before.1, before.2⟩
  opened name ledger found := by
    have before := sound.opened name ledger found
    exact {
      named := before.named
      settled := before.settled.moved moved
      located := located_extends (before.located.moved moved) grown }
  apart := sound.apart
  counter := by
    obtain ⟨next, found⟩ := sound.counter
    obtain ⟨later, laterFound, _⟩ := moved.ahead next found
    exact ⟨later, laterFound⟩

theorem OpenWith.frame (isOpen : OpenWith storage name ledger log)
    (ahead : ∀ next, nextLedgerId storage.db = .ok next →
      ∃ later, nextLedgerId after.db = .ok later ∧ next ≤ later)
    (entries : ∀ id entryId, ledger.info.Knows id →
      after.db (managedEntryKey id entryId) = storage.db (managedEntryKey id entryId))
    (grown : Files.Extends storage.entryLog.files after.entryLog.files) :
    OpenWith after name ledger log where
  named := isOpen.named
  settled := {
    accounts := isOpen.settled.accounts
    runtime := isOpen.settled.runtime
    lac := isOpen.settled.lac
    ahead := by
      obtain ⟨next, found, below⟩ := isOpen.settled.ahead
      obtain ⟨later, laterFound, above⟩ := ahead next found
      exact ⟨later, laterFound, below.trans_le above⟩ }
  located entry member := by
    obtain ⟨index, found, holds⟩ := isOpen.located entry member
    have known := (isOpen.settled.accounts.stored member).knows
    exact ⟨index, (entries _ _ known).trans found, holds.extends grown⟩

theorem Sound.replace (sound : Sound storage logs)
    (ledgers : after.ledgers = update storage.ledgers name (some ledger))
    (here : OpenWith after name ledger log)
    (fresh : ∀ id, ledger.info.Knows id →
      (∃ old, storage.ledgers name = some old ∧ old.info.Knows id) ∨
      ∀ next, nextLedgerId storage.db = .ok next → next ≤ id)
    (ahead : ∀ next, nextLedgerId storage.db = .ok next →
      ∃ later, nextLedgerId after.db = .ok later ∧ next ≤ later)
    (keys : ∀ other, other ≠ name →
      after.db (managedLedgerKey other) = storage.db (managedLedgerKey other))
    (entries : ∀ other otherLedger id entryId, other ≠ name →
      storage.ledgers other = some otherLedger → otherLedger.info.Knows id →
      after.db (managedEntryKey id entryId) = storage.db (managedEntryKey id entryId))
    (grown : Files.Extends storage.entryLog.files after.entryLog.files) :
    Sound after (update logs name log) := by
  -- An id of the new ledger belongs to no other one: it is an old one, or new to the counter.
  have separate other otherLedger id : storage.ledgers other = some otherLedger →
      otherLedger.info.Knows id → ledger.info.Knows id → other = name := by
    intro found otherKnows knows
    obtain ⟨old, oldFound, oldKnows⟩ | beyond := fresh id knows
    · exact sound.apart _ _ _ _ id found oldFound otherKnows oldKnows
    · obtain ⟨next, nextFound⟩ := sound.counter
      have behind := (sound.opened other otherLedger found).settled.knows_lt nextFound otherKnows
      exact absurd (beyond next nextFound) (not_le.mpr behind)
  constructor
  · intro other missing
    by_cases same : other = name
    · subst same
      simp [ledgers] at missing
    · rw [ledgers, update_of_ne same] at missing
      rw [update_of_ne same, keys other same]
      exact sound.closed other missing
  · intro other otherLedger found
    by_cases same : other = name
    · subst same
      rw [ledgers, update_self] at found
      cases found
      rw [update_self]
      exact here
    rw [ledgers, update_of_ne same] at found
    rw [update_of_ne same]
    apply (sound.opened other otherLedger found).frame ahead _ grown
    intro id entryId knows
    exact entries other otherLedger id entryId same found knows
  · intro left leftLedger right rightLedger id leftFound rightFound leftKnows rightKnows
    rw [ledgers] at leftFound rightFound
    by_cases isLeft : left = name
    · by_cases isRight : right = name
      · rw [isLeft, isRight]
      · rw [isLeft, update_self] at leftFound
        rw [update_of_ne isRight] at rightFound
        cases leftFound
        exact absurd (separate right rightLedger id rightFound rightKnows leftKnows) isRight
    rw [update_of_ne isLeft] at leftFound
    by_cases isRight : right = name
    · rw [isRight, update_self] at rightFound
      cases rightFound
      exact absurd (separate left leftLedger id leftFound leftKnows rightKnows) isLeft
    · rw [update_of_ne isRight] at rightFound
      exact sound.apart _ _ _ _ id leftFound rightFound leftKnows rightKnows
  · obtain ⟨next, found⟩ := sound.counter
    obtain ⟨later, laterFound, _⟩ := ahead next found
    exact ⟨later, laterFound⟩

section

variable (sound : Sound storage logs)
include sound

theorem Sound.open_fresh (closed : storage.ledgers name = none) {faults : OpenFaults} {after : Db}
    (opened : openWithConfig faults name storage.db storage.config = .ok (ledger, after)) :
    Sound { storage with
      db := after
      ledgers := update storage.ledgers name (some ledger) } logs := by
  obtain ⟨missing, empty⟩ := sound.closed name closed
  have stages := open_with_config_opened opened
  obtain ⟨⟨id, next, infoEq, found, larger⟩, settled, rewritten⟩ := stages.fresh missing
  have same : logs = update logs name [] := by
    rw [← empty, update_eq_self]
  rw [same]
  apply sound.replace rfl
  · exact ⟨stages.name_eq, settled, by simp [Located]⟩
  · intro other known
    right
    intro first firstFound
    rw [found] at firstFound
    cases firstFound
    obtain ⟨only, member, isId⟩ := known
    rw [infoEq, StoredManagedLedgerInfo.new, mem_singleton] at member
    rw [← isId, member]
    exact larger
  · exact rewritten.ahead
  · intro other different
    apply rewritten.frame _ (ledger_key_ne_allocator_key other)
    intro keys
    exact different (managed_ledger_key_inj keys)
  · intro other otherLedger otherId entryId _ _ _
    exact rewritten.frame _ (entry_key_ne_allocator_key _ _) (ledger_key_ne_entry_key _ _ _).symm
  · exact .refl _

theorem Sound.get_or_open (faults : OpenFaults) (name : Text) : Sound
    (getOrOpenLedger faults name storage).2 logs ∧
      (getOrOpenLedger faults name storage).2.entryLog = storage.entryLog ∧
      ∀ ledger, (getOrOpenLedger faults name storage).1 = .ok ledger →
        (getOrOpenLedger faults name storage).2.ledgers name = some ledger := by
  unfold getOrOpenLedger
  cases cached : storage.ledgers name with
  | some ledger =>
    exact ⟨sound, rfl, fun other same => cached.trans (congrArg some (Except.ok.inj same))⟩
  | none =>
    cases outcome : openWithConfig faults name storage.db storage.config with
    | error failure =>
      have missing := (sound.closed name cached).1
      have moved := (loads_missing missing).error_moved (by simp [Located]) outcome
      exact ⟨sound.moved moved (.refl _), rfl, fun _ impossible => by cases impossible⟩
    | ok pair =>
      refine ⟨sound.open_fresh cached outcome, rfl, ?_⟩
      intro other same
      cases same
      exact update_self _ _ _

theorem Sound.append (cached : storage.ledgers name = some ledger)
    (aligned : Aligned storage.entryLog) (faults) {items : List Item} (nonempty : items ≠ []) :
    (∃ error, (appendItems faults name ledger items storage).1 = .error error ∧
      Sound (appendItems faults name ledger items storage).2 logs) ∨
    ∃ positions, (appendItems faults name ledger items storage).1 = .ok positions ∧
      List.Forall₂ (fun position item => position.partition = item.partition) positions items ∧
      Sound (appendItems faults name ledger items storage).2
        (update logs name (logs name ++ positions.zip items)) := by
  have isOpen := sound.opened name ledger cached
  rcases add_entries_cases faults ledger storage.db storage.entryLog nonempty with
    refused | ⟨assigned, indices, committed⟩
  · left
    obtain ⟨error, failed⟩ := refused.failed
    refine ⟨error, failed, ?_⟩
    have unchanged : update storage.ledgers name (some ledger) = storage.ledgers := by
      rw [← cached, update_eq_self]
    unfold appendItems
    simp only [refused.ledger_eq, unchanged]
    exact sound.moved refused.moved refused.extends
  right
  have assigning := committed.assigning isOpen.settled
  have frame key : key ≠ ledgerIdAllocatorKey → key ≠ managedLedgerKey name →
      (∀ position ∈ assigned.positions, key ≠
        managedEntryKey position.ledgerId position.entryId) →
      (appendItems faults name ledger items storage).2.db key = storage.db key := by
    intro notAllocator notLedger notEntry
    have other := @commit_other indices ledger.name key assigned
      (isOpen.named.symm ▸ notLedger) notEntry
    exact (congrFun committed.db_eq key).trans
      (other.trans (assigning.moved.frame key notAllocator))
  refine ⟨assigned.positions, committed.result_eq, assigning.partitions, ?_⟩
  apply sound.replace rfl
  · exact {
      named := (congrArg RocksDBManagedLedger.name committed.ledger_eq).trans isOpen.named
      settled := committed.settled isOpen.settled nonempty
      located := committed.located isOpen.settled
        (located_extends isOpen.located committed.extends) (committed.holds aligned) }
  · intro id known
    rw [committed.ledger_eq] at known
    obtain old | new := assigning.newIds id known
    · exact .inl ⟨ledger, cached, old⟩
    · exact .inr new
  · intro next found
    obtain ⟨later, laterFound, above⟩ := assigning.moved.ahead next found
    have counted := next_ledger_id_commit ledger.name assigned indices
    rw [← committed.db_eq, laterFound] at counted
    exact ⟨later, counted, above⟩
  · intro other different
    apply frame _ (ledger_key_ne_allocator_key other)
    · exact fun keys => different (managed_ledger_key_inj keys)
    · exact fun position _ => ledger_key_ne_entry_key _ _ _
  · intro other otherLedger id entryId different found knows
    apply frame _ (entry_key_ne_allocator_key _ _) (ledger_key_ne_entry_key _ _ _).symm
    intro position member same
    -- The ids of the batch are ids of this ledger, old or new.
    have sameId := (managed_entry_key_inj same).1
    have here := (assigning.placed_stored member).knows
    rw [← sameId] at here
    obtain old | new := assigning.newIds id here
    · exact different (sound.apart _ _ _ _ id found cached knows old)
    · obtain ⟨next, nextFound⟩ := sound.counter
      have behind := (sound.opened other otherLedger found).settled.knows_lt nextFound knows
      exact absurd (new next nextFound) (not_le.mpr behind)
  · exact committed.extends

end

def answeredEntry (name : Text) (completion : Completion) : Option (ManagedLedgerPosition × Item) :=
  match completion.2 with
  | .ok id =>
    if ledgerName completion.1 = name then some (id.toPosition, completion.1.toItem) else none
  | .error _ => none

/-- The log that the answers to the requests of a ledger amount to: each accepted
request at its position, in the order of the answers. -/
def answered (name : Text) (completions : List Completion) : CommittedLog :=
  completions.filterMap (answeredEntry name)

theorem mem_answered {entry : ManagedLedgerPosition × Item} :
    entry ∈ answered name completions ↔ ∃ req, (req, .ok entry.1.toMessageId) ∈ completions ∧
      ledgerName req = name ∧ req.toItem = entry.2 := by
  unfold answered
  rw [mem_filterMap]
  constructor
  · intro found
    obtain ⟨⟨req, result⟩, member, isEntry⟩ := found
    cases result with
    | error error => cases isEntry
    | ok id =>
      simp only [answeredEntry] at isEntry
      split_ifs at isEntry with here
      cases isEntry
      exact ⟨req, member, here, rfl⟩
  · intro found
    obtain ⟨req, member, here, item⟩ := found
    refine ⟨_, member, ?_⟩
    simp only [answeredEntry, if_pos here, item, ManagedLedgerPosition.to_position_to_message_id]

theorem answered_append (name left right) :
    answered name (left ++ right) = answered name left ++ answered name right :=
  filterMap_append

theorem answered_complete_err (name reqs error) : answered name (completeErr reqs error) = [] := by
  induction reqs with
  | nil => rfl
  | cons req reqs ih => exact ih

theorem answered_complete_ok (reqs) (positions)
    (named : ∀ req ∈ reqs, ledgerName req = name) (other : Text) :
    answered other (completeOk reqs positions) =
      if other = name then positions.zip (reqs.map toItem) else [] := by
  induction reqs generalizing positions with
  | nil => simp [completeOk, answered]
  | cons req reqs ih =>
    have first := named req mem_cons_self
    cases positions with
    | nil => simp [completeOk, answered]
    | cons position positions =>
      have rest := ih positions fun req member => named req (mem_cons_of_mem _ member)
      have split : answered other (completeOk (req :: reqs) (position :: positions)) =
          answered other [(req, .ok position.toMessageId)] ++
            answered other (completeOk reqs positions) :=
        answered_append other [(req, .ok position.toMessageId)] _
      rw [split, rest]
      by_cases here : other = name
      · simp [answered, answeredEntry, first, here]
      · simp [answered, answeredEntry, first, here, Ne.symm here]

def Answers (state : QueueState) : Prop :=
  Sound state.storage fun name => answered name state.completions

/-- The requests of a group are all refused, with one error, or all accepted, in
their order. -/
def Whole (group : Group) (before after : QueueState) : Prop :=
  (∃ error, after.completions = before.completions ++ completeErr group.reqs error) ∨
    ∃ positions, after.completions = before.completions ++ completeOk group.reqs positions ∧
      List.Forall₂ (fun position req => position.partition = req.partition) positions group.reqs

theorem answers_err {storage} (sound : Sound storage fun name => answered name state.completions)
    (reqs : List WriteReq) (error : String) :
    Answers { storage := storage, completions := state.completions ++ completeErr reqs error } := by
  unfold Answers
  simp only [answered_append, answered_complete_err, append_nil]
  exact sound

theorem answers_ok {storage name} {reqs}
    {positions : List ManagedLedgerPosition} (named : ∀ req ∈ reqs, ledgerName req = name)
    (sound : Sound storage (update (fun name => answered name state.completions) name
      (answered name state.completions ++ positions.zip (reqs.map toItem)))) :
    Answers ⟨storage, state.completions ++ completeOk reqs positions⟩ := by
  have logs : (fun other => answered other (state.completions ++ completeOk reqs positions)) =
      update (fun name => answered name state.completions) name
        (answered name state.completions ++ positions.zip (reqs.map toItem)) := by
    funext other
    rw [answered_append, answered_complete_ok reqs positions named]
    by_cases here : other = name
    · subst here
      simp
    · simp [here]
  unfold Answers
  rw [logs]
  exact sound

theorem process_group_spec (answers : Answers state) (formed : group.Formed)
    (aligned : Aligned state.storage.entryLog) :
    Answers (processGroup state group) ∧ Whole group state (processGroup state group) := by
  obtain ⟨sound, sameLog, cached⟩ := answers.get_or_open group.faults.opening group.name
  have some : group.reqs.map toItem ≠ [] := by simpa using formed.nonempty
  have outcome := process_group_outcome state group
  generalize processGroup state group = after at outcome ⊢
  cases outcome with
  | notOpened error storage opening =>
    rw [opening] at sound
    exact ⟨answers_err sound group.reqs error, .inl ⟨error, rfl⟩⟩
  | notAppended ledger error opened storage opening append =>
    rw [opening] at sound sameLog cached
    have result := sound.append (cached ledger rfl) (sameLog ▸ aligned) group.faults.append some
    rw [append] at result
    obtain ⟨_, _, kept⟩ | ⟨_, impossible, _⟩ := result
    · exact ⟨answers_err kept group.reqs error, .inl ⟨error, rfl⟩⟩
    · cases impossible
  | appended ledger positions opened storage opening append =>
    rw [opening] at sound sameLog cached
    have result := sound.append (cached ledger rfl) (sameLog ▸ aligned) group.faults.append some
    rw [append] at result
    obtain ⟨_, impossible, _⟩ | ⟨_, same, partitions, kept⟩ := result
    · cases impossible
    · cases same
      rw [forall₂_map_right_iff] at partitions
      exact ⟨answers_ok formed.named kept, .inr ⟨positions, rfl, partitions⟩⟩

theorem Whole.replies {after : QueueState} (whole : Whole group before after) :
    after.completions.map fst = before.completions.map fst ++ group.reqs := by
  obtain ⟨error, result⟩ | ⟨positions, result, partitions⟩ := whole
  · rw [result, map_append, completeErr, map_map]
    exact congrArg _ (map_id _)
  · rw [result, map_append, completeOk, map_map]
    exact congrArg _ (map_fst_zip partitions.length_eq.ge)

def startQueue (files : Files) (config : ManagedLedgerConfig) : QueueState where
  storage := openStorage .empty files config
  completions := []

variable (start : QueueState) (groups : List Group)

def afterGroups : QueueState :=
  groups.foldl processGroup start

def AlignedRun : Prop :=
  ∀ done group rest, groups = done ++ group :: rest →
    Aligned (afterGroups start done).storage.entryLog

theorem after_groups_concat (start done group) :
    afterGroups start (done ++ [group]) = processGroup (afterGroups start done) group := by
  simp [afterGroups]

theorem AlignedRun.init {start done more} (aligned : AlignedRun start (done ++ more)) :
    AlignedRun start done := by
  intro before group rest split
  apply aligned before group (rest ++ more)
  rw [split, append_assoc, cons_append]

theorem answers_after {start : QueueState} (answers : Answers start) (groups : List Group)
    (formed : ∀ group ∈ groups, group.Formed) (aligned : AlignedRun start groups) :
    Answers (afterGroups start groups) ∧
      (afterGroups start groups).completions.map fst =
        start.completions.map fst ++ groups.flatMap Group.reqs := by
  induction groups using reverseRecOn with
  | nil => exact ⟨answers, by simp [afterGroups]⟩
  | append_singleton groups group ih =>
    have before := ih (fun other member => formed other (mem_append_left _ member)) aligned.init
    have here := formed group (mem_append_right _ (mem_singleton_self _))
    have step := process_group_spec before.1 here (aligned groups group [] rfl)
    rw [after_groups_concat]
    refine ⟨step.1, ?_⟩
    rw [step.2.replies, before.2, append_assoc, flatMap_append, flatMap_singleton]

theorem process_group_grows (state group) :
    ∃ more, (processGroup state group).completions = state.completions ++ more := by
  have outcome := process_group_outcome state group
  generalize processGroup state group = after at outcome ⊢
  cases outcome with
  | notOpened | notAppended | appended => exact ⟨_, rfl⟩

theorem completions_grow (start done more) :
    ∃ later, (afterGroups start (done ++ more)).completions =
      (afterGroups start done).completions ++ later := by
  induction more using reverseRecOn with
  | nil => exact ⟨[], by simp⟩
  | append_singleton more group ih =>
    obtain ⟨later, grown⟩ := ih
    obtain ⟨last, step⟩ := process_group_grows (afterGroups start (done ++ more)) group
    refine ⟨later ++ last, ?_⟩
    rw [← append_assoc, after_groups_concat, step, grown, append_assoc]

theorem get_or_open_entry_log (faults name storage) :
    (getOrOpenLedger faults name storage).2.entryLog = storage.entryLog := by
  unfold getOrOpenLedger
  cases storage.ledgers name with
  | some ledger => rfl
  | none => cases openWithConfig faults name storage.db storage.config <;> rfl

theorem append_items_entry_log (faults name ledger items storage) :
    (appendItems faults name ledger items storage).2.entryLog =
      (addEntriesWithPartitionAndMetadata faults ledger storage.db storage.entryLog
        items).entryLog := rfl

theorem process_group_aligned (traceless : WriteFaults.Traceless group.faults.append.entryLog)
    (aligned : Aligned state.storage.entryLog) :
    Aligned (processGroup state group).storage.entryLog := by
  have sameLog := get_or_open_entry_log group.faults.opening group.name state.storage
  have outcome := process_group_outcome state group
  generalize processGroup state group = after at outcome ⊢
  cases outcome with
  | notOpened error storage opening =>
    rw [opening] at sameLog
    exact sameLog ▸ aligned
  | notAppended ledger error opened storage opening append
  | appended ledger positions opened storage opening append =>
    rw [opening] at sameLog
    have kept := add_entries_aligned traceless (sameLog ▸ aligned : Aligned opened.entryLog)
      ledger opened.db (group.reqs.map toItem)
    rw [← append_items_entry_log, append] at kept
    exact kept

theorem aligned_run_of_traceless {start : QueueState} (aligned : Aligned start.storage.entryLog)
    (groups : List Group)
    (traceless : ∀ group ∈ groups, WriteFaults.Traceless group.faults.append.entryLog) :
    AlignedRun start groups := by
  intro done group rest split
  have early : ∀ other ∈ done, WriteFaults.Traceless other.faults.append.entryLog := by
    intro other member
    apply traceless
    rw [split]
    exact mem_append_left _ member
  clear split
  induction done using reverseRecOn with
  | nil => exact aligned
  | append_singleton done last ih =>
    rw [after_groups_concat]
    apply process_group_aligned
    · exact early last (mem_append_right _ (mem_singleton_self _))
    · exact ih fun other member => early other (mem_append_left _ member)

def readMessage (storage : RocksDbManagedLedgerStorage) (name : Text) (id : MessageId) :
    Option StoredMessage :=
  (storage.ledgers name).bind fun ledger =>
    getMessageEntryById ledger storage.db storage.entryLog id

def messageFor (req : WriteReq) (id : MessageId) : StoredMessage where
  messageId := id
  metadata := req.metadata
  payload := req.payload

def ReturnsWords (completions : List Completion) : Prop :=
  ∀ completion ∈ completions, ∀ id ∈ completion.2.toOption, id.IsWord

/-- Readers see of every ledger the requests that were accepted, each at the
position it was told, and nothing else. -/
structure Visible (state : QueueState) : Prop where
  byId : ∀ name id message, readMessage state.storage name id = some message ↔
    ∃ req, (req, .ok id) ∈ state.completions ∧ ledgerName req = name ∧
      id.partition = req.partition ∧ message = messageFor req id
  scanned : ∀ name ledger start limit, state.storage.ledgers name = some ledger →
    ∃ result, readEntriesFrom ledger state.storage.db state.storage.entryLog start limit =
      .ok result ∧ ∀ message ∈ result, readMessage state.storage name message.messageId =
        some message
  increasing : ∀ name, (answered name state.completions).Pairwise fun left right =>
    left.1.slot < right.1.slot

theorem answered_in_range (words : ReturnsWords completions) (name : Text) :
    LogInRange (answered name completions) := by
  apply log_in_range_of_words
  · intro entry member
    obtain ⟨req, _, _, item⟩ := mem_answered.mp member
    exact item ▸ req.framed
  · intro entry member
    obtain ⟨req, found, _, _⟩ := mem_answered.mp member
    exact words _ found _ rfl

theorem read_message_spec (answers : Answers state) (words : ReturnsWords state.completions)
    (name : Text) (id : MessageId) :
    readMessage state.storage name id = messageIn (answered name state.completions) id := by
  unfold readMessage
  cases cached : state.storage.ledgers name with
  | none =>
    have empty := (answers.closed name cached).2
    rw [empty]
    rfl
  | some ledger =>
    have isOpen := answers.opened name ledger cached
    exact get_message_entry_by_id_spec isOpen.settled isOpen.located
      (answered_in_range words name) id

theorem Answers.accounts (answers : Answers state) (name : Text) :
    ∃ info, Accounts info (answered name state.completions) := by
  cases cached : state.storage.ledgers name with
  | none =>
    have empty := (answers.closed name cached).2
    rw [empty]
    exact ⟨_, accounts_new 0⟩
  | some ledger => exact ⟨_, (answers.opened name ledger cached).settled.accounts⟩

theorem visible_of_answers (answers : Answers state)
    (words : ReturnsWords state.completions) : Visible state where
  byId name id message := by
    obtain ⟨info, accounts⟩ := answers.accounts name
    rw [read_message_spec answers words, message_in_eq_some accounts]
    constructor
    · intro found
      obtain ⟨entry, member, ids, same⟩ := found
      obtain ⟨req, answer, here, item⟩ := mem_answered.mp member
      have partition := accounts.partitions entry member
      rw [ids] at answer
      refine ⟨req, answer, here, ?_, ?_⟩
      · rw [← ids, item]
        exact partition
      · rw [same, ← ids, messageFor, item]
        rfl
    · intro found
      obtain ⟨req, answer, here, _, same⟩ := found
      exact ⟨(id.toPosition, req.toItem), mem_answered.mpr ⟨req, answer, here, rfl⟩, rfl, same⟩
  scanned name ledger start limit cached := by
    have isOpen := answers.opened name ledger cached
    obtain ⟨result, read, committed⟩ := read_entries_from_committed isOpen.settled isOpen.located
      (answered_in_range words name) start limit
    refine ⟨result, read, ?_⟩
    intro message member
    obtain ⟨entry, inLog, same⟩ := committed message member
    rw [read_message_spec answers words, same]
    exact message_in_member isOpen.settled.accounts inLog
  increasing name := by
    obtain ⟨info, accounts⟩ := answers.accounts name
    exact accounts.increasing

/-- The worker answers every request once, ledger by ledger in the order of
submission. -/
structure Answered (submitted : List WriteReq) (state : QueueState) : Prop where
  once : (state.completions.map Prod.fst).Perm submitted
  inOrder : ∀ name, withKey ledgerName name (state.completions.map Prod.fst) =
    withKey ledgerName name submitted

theorem answers_start (files config) : Answers (startQueue files config) := sound_start files config

/-- The queue handles the requests of each ledger one by one: every request is
answered once and in order; every group is accepted or refused as a whole; and
after every group readers see exactly the accepted requests, at increasing
positions. -/
theorem queue_handles_requests_one_by_one (files : Files) (config : ManagedLedgerConfig)
    (batches : List Batch)
    (aligned : AlignedRun (startQueue files config) (batches.flatMap Batch.groups))
    (words : ReturnsWords (workerLoop (startQueue files config) batches).completions) :
    Answered (batches.flatMap Batch.reqs) (workerLoop (startQueue files config) batches) ∧
    (∀ done group rest, batches.flatMap Batch.groups = done ++ group :: rest →
      Whole group (afterGroups (startQueue files config) done)
        (afterGroups (startQueue files config) (done ++ [group]))) ∧
    ∀ done rest, batches.flatMap Batch.groups = done ++ rest →
      Visible (afterGroups (startQueue files config) done) := by
  have formed group (member : group ∈ batches.flatMap Batch.groups) : group.Formed := by
    obtain ⟨batch, _, inBatch⟩ := mem_flatMap.mp member
    exact formed_of_mem_groups inBatch
  have start := answers_start files config
  rw [worker_loop_eq] at words ⊢
  have each done rest : batches.flatMap Batch.groups = done ++ rest →
      Answers (afterGroups (startQueue files config) done) := by
    intro split
    rw [split] at formed aligned
    exact (answers_after start done
      (fun group member => formed group (mem_append_left _ member)) aligned.init).1
  refine ⟨?_, ?_, ?_⟩
  · have replies := (answers_after start _ formed aligned).2
    have inOrder name : withKey ledgerName name
        ((afterGroups (startQueue files config) (batches.flatMap Batch.groups)).completions.map
          fst) = withKey ledgerName name (batches.flatMap Batch.reqs) := by
      rw [replies]
      exact with_key_batches batches name
    exact ⟨perm_of_with_key ledgerName inOrder, inOrder⟩
  · intro done group rest split
    rw [after_groups_concat]
    have here : group ∈ batches.flatMap Batch.groups := by
      rw [split]
      simp
    exact (process_group_spec (each done _ split) (formed group here)
      (aligned done group rest split)).2
  intro done rest split
  apply visible_of_answers (each done rest split)
  intro completion member
  apply words completion
  obtain ⟨later, grown⟩ := completions_grow (startQueue files config) done rest
  rw [split]
  change completion ∈ (afterGroups (startQueue files config) (done ++ rest)).completions
  rw [grown]
  exact mem_append_left _ member

instance (completions : List Completion) : Decidable (ReturnsWords completions) :=
  inferInstanceAs (Decidable (∀ completion ∈ completions, ∀ id ∈ completion.2.toOption, _))

def sampleReq (topic : Text) (payload : UInt8) : WriteReq where
  topic := topic
  partition := -1
  metadata := []
  payload := [payload]
  framed := by simp [Item.Framed]

def firstTopic : Text := ['a']

def secondTopic : Text := ['b']

/-- The second ledger loses the database while the group is committed. -/
def mixedBatch : Batch where
  reqs := [sampleReq firstTopic 1, sampleReq secondTopic 2, sampleReq firstTopic 3]
  faults := fun name => if name = managedLedgerName secondTopic then
    { GroupFaults.none with append := { AppendFaults.none with dbWrite := some "db closed" } }
    else .none
  nonempty := by decide
  atMost := by decide

def quietBatch (reqs : List WriteReq) (nonempty : reqs ≠ []) (atMost : reqs.length ≤ maxBatch) :
    Batch where
  reqs := reqs
  faults := fun _ => .none
  nonempty := nonempty
  atMost := atMost

def retryBatch : Batch := quietBatch [sampleReq secondTopic 2] (by decide) (by decide)

def sampleQueue : QueueState := startQueue [] { maxEntriesPerLedger := some 2 }

theorem sample_aligned :
    AlignedRun sampleQueue ([mixedBatch, retryBatch].flatMap Batch.groups) := by
  apply aligned_run_of_traceless (aligned_open _ _)
  intro group member
  have quiet : group.faults.append.entryLog = .none := by
    obtain ⟨batch, inBatches, inBatch⟩ := mem_flatMap.mp member
    obtain ⟨name, _, rfl⟩ := mem_map.mp inBatch
    simp only [mem_cons, not_mem_nil, or_false] at inBatches
    obtain rfl | rfl := inBatches
    · simp only [mixedBatch]
      split_ifs <;> rfl
    · rfl
  rw [quiet]
  exact ⟨rfl, fun _ _ impossible => by cases impossible⟩

/-- Two ledgers in one batch, one of which is refused and tried again. -/
theorem queue_handles_requests_one_by_one_retry :
    (workerLoop sampleQueue [mixedBatch, retryBatch]).completions.map Prod.snd =
      [.ok ⟨0, 0, -1⟩, .ok ⟨0, 1, -1⟩, .error "db closed", .ok ⟨2, 0, -1⟩] ∧
    Visible (afterGroups sampleQueue ([mixedBatch, retryBatch].flatMap Batch.groups)) :=
  ⟨by decide, (queue_handles_requests_one_by_one [] { maxEntriesPerLedger := some 2 }
    [mixedBatch, retryBatch] sample_aligned (by decide)).2.2 _ [] (by simp)⟩

/-- The disk is full after the first byte of the entry. -/
def tornBatch : Batch where
  reqs := [sampleReq firstTopic 1]
  faults := fun _ => { GroupFaults.none with append := { AppendFaults.none with
    entryLog := { openError := none, writeError := some (1, "disk full") } } }
  nonempty := by decide
  atMost := by decide

/-- After a write that failed half way, the next request is accepted at a position
where no reader finds it. -/
theorem accepted_request_is_unreadable :
    (workerLoop sampleQueue [tornBatch, quietBatch [sampleReq firstTopic 2] (by decide)
      (by decide)]).completions.map Prod.snd =
      [.error "write entrylog failed: disk full", .ok ⟨0, 0, -1⟩] ∧
    readMessage (workerLoop sampleQueue [tornBatch, quietBatch [sampleReq firstTopic 2]
      (by decide) (by decide)]).storage (managedLedgerName firstTopic) ⟨0, 0, -1⟩ = none := by
  decide

end PulsarLite.Storage.QueueRefinement
