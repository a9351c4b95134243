import Mathlib.Data.List.Basic
import Mathlib.Logic.Function.Basic
import PulsarLite.Library.Behaviors
import PulsarLite.Storage.Keys

/-!
# From a committed publish to its dispatch

A connection hands its Sends to the write queue. The worker commits them in groups
of one ledger, and puts a completion for each into the channel of its connection.
The connection takes the completions out, writes the receipt, looks the producer
up under its id, and starts a dispatch of that producer's topic. Meanwhile it also
handles other commands, and it may end.
-/

namespace PulsarLite.Broker.PublishWakeup

open Library Storage List Function

structure Send where
  connection : Nat
  producerId : Nat
  topic : Text
  message : Nat
deriving DecidableEq

structure Completion where
  send : Send
  committed : Bool
deriving DecidableEq

/-- The connection's loop is running, or it was left, or `cleanup` is done. -/
inductive Phase
  | serving
  | ending
  | closed
deriving DecidableEq

/-- The capacity of the channel is at least the number of Sends that a connection
may have under way, so the channel is never full. -/
structure ServerCnx where
  phase : Phase
  producers : Nat → Option Text
  connAppendRx : List Completion

inductive Event
  | committed (message : Nat) (topic : Text)
  | dispatched (topic : Text)
deriving DecidableEq

/-- The connections; the queue, what the worker has taken from it, and the
completions it still has to send. -/
structure System where
  connections : Nat → ServerCnx
  queue : List Send
  batch : List Send
  completing : List Completion
  sent : Nat
  history : List Event

def start : System where
  connections := fun _ => { phase := .serving, producers := fun _ => none, connAppendRx := [] }
  queue := []
  batch := []
  completing := []
  sent := 0
  history := []

section

variable (sys : System) (connection : Nat)

def setConnection (cnx : ServerCnx) : System :=
  { sys with connections := update sys.connections connection cnx }

/-- The loop is left: the client is gone, or a command or a write has failed. -/
def ends : System :=
  let cnx := sys.connections connection
  match cnx.phase with
  | .serving => setConnection sys connection { cnx with phase := .ending }
  | _ => sys

/-- `cleanup` closes the channel and throws away what is in it. -/
def cleanup : System :=
  let cnx := sys.connections connection
  match cnx.phase with
  | .ending => setConnection sys connection
      { phase := .closed, producers := fun _ => none, connAppendRx := [] }
  | _ => sys

variable (connection producerId : Nat)

/-- A producer id that is in use is an error, which ends the connection. -/
def handleProducer (topic : Text) : System :=
  let cnx := sys.connections connection
  match cnx.phase, cnx.producers producerId with
  | .serving, none => setConnection sys connection
      { cnx with producers := update cnx.producers producerId (some topic) }
  | .serving, some _ => ends sys connection
  | _, _ => sys

def handleSend : System :=
  let cnx := sys.connections connection
  match cnx.phase, cnx.producers producerId with
  | .serving, some topic => { sys with
      queue := sys.queue ++ [{
        connection := connection
        producerId := producerId
        topic := topic
        message := sys.sent }]
      sent := sys.sent + 1 }
  | .serving, none => ends sys connection
  | _, _ => sys

def handleCloseProducer : System :=
  let cnx := sys.connections connection
  match cnx.phase with
  | .serving => setConnection sys connection
      { cnx with producers := update cnx.producers producerId none }
  | _ => sys

def spawned (cnx : ServerCnx) (producerId : Nat) : List Event :=
  match cnx.producers producerId with
  | some topic => [.dispatched topic]
  | none => []

/-- The next completion. A failed append, or a receipt that cannot be written, ends
the connection. -/
def completePersistentSend (fed : Bool) : System :=
  let cnx := sys.connections connection
  match cnx.phase, cnx.connAppendRx with
  | .serving, completion :: rest =>
    let taken := setConnection sys connection { cnx with connAppendRx := rest }
    if completion.committed && fed then
      { taken with history := sys.history ++ spawned cnx completion.send.producerId }
    else ends taken connection
  | _, _ => sys

def takesBatch (count : Nat) : System :=
  match sys.batch, sys.completing with
  | [], [] => { sys with queue := sys.queue.drop count, batch := sys.queue.take count }
  | _, _ => sys

def sameLedger (left right : Send) : Bool :=
  decide (Keys.managedLedgerName left.topic = Keys.managedLedgerName right.topic)

/-- The group of the first request is appended as a whole. -/
def appendsGroup (committed : Bool) : System :=
  match sys.batch, sys.completing with
  | first :: rest, [] =>
    let group := (first :: rest).filter (sameLedger first)
    { sys with
      batch := (first :: rest).filter fun send => !sameLedger first send
      completing := group.map fun send => { send := send, committed := committed }
      history := sys.history ++
        if committed then group.map fun send => .committed send.message send.topic else [] }
  | _, _ => sys

/-- `complete`: the channel of a closed connection takes nothing. -/
def completes : System :=
  match sys.completing with
  | completion :: rest =>
    let connection := completion.send.connection
    let cnx := sys.connections connection
    let taken := { sys with completing := rest }
    match cnx.phase with
    | .closed => taken
    | _ => setConnection taken connection
        { cnx with connAppendRx := cnx.connAppendRx ++ [completion] }
  | [] => sys

inductive Action
  | handleProducer (connection producerId : Nat) (topic : Text)
  | handleSend (connection producerId : Nat)
  | handleCloseProducer (connection producerId : Nat)
  | completePersistentSend (connection : Nat) (fed : Bool)
  | ends (connection : Nat)
  | cleanup (connection : Nat)
  | takesBatch (count : Nat)
  | appendsGroup (committed : Bool)
  | completes
  | rests

def step : Action → System
  | .handleProducer connection producerId topic => handleProducer sys connection producerId topic
  | .handleSend connection producerId => handleSend sys connection producerId
  | .handleCloseProducer connection producerId => handleCloseProducer sys connection producerId
  | .completePersistentSend connection fed => completePersistentSend sys connection fed
  | .ends connection => ends sys connection
  | .cleanup connection => cleanup sys connection
  | .takesBatch count => takesBatch sys count
  | .appendsGroup committed => appendsGroup sys committed
  | .completes => completes sys
  | .rests => sys

def Woken (history : List Event) (message : Nat) (topic : Text) : Prop :=
  ∃ before after, history = before ++ .committed message topic :: after ∧
    .dispatched topic ∈ after

/-- The worker goes on sending completions, and every connection taking them. -/
structure Fair {permitted : System → Action → Prop} (behavior : Behavior step permitted start) :
    Prop where
  worker : ∀ time, ∃ later ≥ time, (behavior.states later).completing = [] ∨
    behavior.actions later = .completes
  connections : ∀ connection time, ∃ later ≥ time,
    ((behavior.states later).connections connection).connAppendRx = [] ∨
      ∃ fed, behavior.actions later = .completePersistentSend connection fed

def EveryCommitWakes {permitted : System → Action → Prop}
    (behavior : Behavior step permitted start) : Prop :=
  ∀ time message topic, .committed message topic ∈ (behavior.states time).history →
    ∃ later ≥ time, Woken (behavior.states later).history message topic

/-- The Send is under way: in the queue, with the worker, or in the channel. -/
def Outstanding (send : Send) : Prop :=
  send ∈ sys.queue ∨ send ∈ sys.batch ∨ send ∈ sys.completing.map Completion.send ∨
    send ∈ (sys.connections send.connection).connAppendRx.map Completion.send

end

/-- No producer is closed while a Send of it is under way, no connection ends while
another Send of it is, and no receipt of a committed Send fails to be written. -/
structure Careful (sys : System) (action : Action) : Prop where
  closing : ∀ connection producerId, action = .handleCloseProducer connection producerId →
    ∀ send, Outstanding sys send → send.connection = connection → send.producerId ≠ producerId
  ending : ∀ connection, (sys.connections connection).phase = .serving →
    ((step sys action).connections connection).phase ≠ .serving →
    ∀ send, Outstanding (step sys action) send → send.connection ≠ connection
  writing : ∀ connection fed, action = .completePersistentSend connection fed → fed = true

inductive Effect (sys : System) : Action → System → Prop
  | rests (action) (worker : action = .completes → sys.completing = [])
      (channel : ∀ connection fed, action = .completePersistentSend connection fed →
        (sys.connections connection).phase = .serving →
        (sys.connections connection).connAppendRx = []) :
      Effect sys action sys
  | registers (connection producerId topic)
      (serving : (sys.connections connection).phase = .serving)
      (free : (sys.connections connection).producers producerId = none) :
      Effect sys (.handleProducer connection producerId topic) (setConnection sys connection
        { sys.connections connection with
          producers := update (sys.connections connection).producers producerId
            (some topic) })
  | enqueues (connection producerId topic) (serving : (sys.connections connection).phase = .serving)
      (producer : (sys.connections connection).producers producerId = some topic) :
      Effect sys (.handleSend connection producerId) { sys with
        queue := sys.queue ++ [{
          connection := connection
          producerId := producerId
          topic := topic
          message := sys.sent }]
        sent := sys.sent + 1 }
  | unregisters (connection producerId) (serving : (sys.connections connection).phase = .serving) :
      Effect sys (.handleCloseProducer connection producerId) (setConnection sys connection
        { sys.connections connection with
          producers := update (sys.connections connection).producers producerId none })
  | wakes (connection fed completion rest) (serving : (sys.connections connection).phase = .serving)
      (received : (sys.connections connection).connAppendRx = completion :: rest)
      (written : (completion.committed && fed) = true) :
      Effect sys (.completePersistentSend connection fed)
        { setConnection sys connection { sys.connections connection with connAppendRx := rest } with
          history := sys.history ++
            spawned (sys.connections connection) completion.send.producerId }
  | breaks (connection fed completion rest)
      (serving : (sys.connections connection).phase = .serving)
      (received : (sys.connections connection).connAppendRx = completion :: rest)
      (failed : (completion.committed && fed) = false) :
      Effect sys (.completePersistentSend connection fed) (setConnection sys connection
        { sys.connections connection with phase := .ending, connAppendRx := rest })
  | leaves (action connection) (serving : (sys.connections connection).phase = .serving)
      (command : action ≠ .completes)
      (other : ∀ connection fed, action ≠ .completePersistentSend connection fed) :
      Effect sys action (setConnection sys connection
        { sys.connections connection with phase := .ending })
  | cleans (connection) (ending : (sys.connections connection).phase = .ending) :
      Effect sys (.cleanup connection) (setConnection sys connection
        { phase := .closed, producers := fun _ => none, connAppendRx := [] })
  | takes (count) (completed : sys.completing = []) :
      Effect sys (.takesBatch count)
        { sys with queue := sys.queue.drop count, batch := sys.queue.take count }
  | appends (committed grouped) (completed : sys.completing = []) :
      Effect sys (.appendsGroup committed) { sys with
        batch := sys.batch.filter fun send => !grouped send
        completing := (sys.batch.filter grouped).map fun send =>
          { send := send, committed := committed }
        history := sys.history ++ if committed then
          (sys.batch.filter grouped).map fun send => .committed send.message send.topic else [] }
  | loses (completion rest) (completing : sys.completing = completion :: rest)
      (closed : (sys.connections completion.send.connection).phase = .closed) :
      Effect sys .completes { sys with completing := rest }
  | hands (completion rest) (completing : sys.completing = completion :: rest) :
      Effect sys .completes (setConnection { sys with completing := rest }
        completion.send.connection { sys.connections completion.send.connection with
          connAppendRx := (sys.connections completion.send.connection).connAppendRx ++
            [completion] })

section

variable (sys : System)
include sys

theorem rests_command {action : Action} (command : action ≠ .completes)
    (other : ∀ connection fed, action ≠ .completePersistentSend connection fed) :
    Effect sys action sys :=
  .rests action (fun same => absurd same command)
    (fun connection fed same => absurd same (other connection fed))

theorem ends_effect {action : Action} (connection : Nat) (command : action ≠ .completes)
    (other : ∀ connection fed, action ≠ .completePersistentSend connection fed) :
    Effect sys action (ends sys connection) := by
  unfold ends
  dsimp only
  split
  · next serving => exact .leaves action connection serving command other
  · exact rests_command sys command other

theorem complete_persistent_send_effect (connection fed) :
    Effect sys (.completePersistentSend connection fed)
      (completePersistentSend sys connection fed) := by
  unfold completePersistentSend
  dsimp only
  split
  · next completion rest serving received =>
      split_ifs with written
      · exact .wakes connection fed completion rest serving received written
      have left : ends (setConnection sys connection
          { sys.connections connection with connAppendRx := rest }) connection =
          setConnection sys connection
            { sys.connections connection with phase := .ending, connAppendRx := rest } := by
        simp [ends, setConnection, serving]
      rw [left]
      exact .breaks connection fed completion rest serving received (by simpa using written)
  · next empty =>
      apply Effect.rests
      · intro impossible
        cases impossible
      intro other _ same serving
      cases same
      cases received : (sys.connections connection).connAppendRx with
      | nil => rfl
      | cons completion rest => exact absurd received (empty completion rest serving)

theorem appends_group_effect (committed : Bool) :
    Effect sys (.appendsGroup committed) (appendsGroup sys committed) := by
  unfold appendsGroup
  split
  · next first rest batch completed =>
      rw [← batch]
      exact .appends committed (sameLedger first) completed
  · exact rests_command sys (by simp) (by simp)

theorem completes_effect : Effect sys .completes (completes sys) := by
  unfold completes
  split
  · next completion rest completing =>
      dsimp only
      split
      · next closed => exact .loses completion rest completing closed
      · exact .hands completion rest completing
  · next completed => exact .rests _ (fun _ => completed) (by simp)

theorem step_effect (action : Action) : Effect sys action (step sys action) := by
  cases action with
  | handleProducer connection producerId topic =>
    simp only [step, handleProducer]
    split
    · next serving free => exact .registers connection producerId topic serving free
    · exact ends_effect sys connection (by simp) (by simp)
    · exact rests_command sys (by simp) (by simp)
  | handleSend connection producerId =>
    simp only [step, handleSend]
    split
    · next topic serving producer => exact .enqueues connection producerId topic serving producer
    · exact ends_effect sys connection (by simp) (by simp)
    · exact rests_command sys (by simp) (by simp)
  | handleCloseProducer connection producerId =>
    simp only [step, handleCloseProducer]
    split
    · next serving => exact .unregisters connection producerId serving
    · exact rests_command sys (by simp) (by simp)
  | completePersistentSend connection fed =>
    exact complete_persistent_send_effect sys connection fed
  | ends connection => exact ends_effect sys connection (by simp) (by simp)
  | cleanup connection =>
    simp only [step, cleanup]
    split
    · next ending => exact .cleans connection ending
    · exact rests_command sys (by simp) (by simp)
  | takesBatch count =>
    simp only [step, takesBatch]
    split
    · next completed => exact .takes count completed
    · exact rests_command sys (by simp) (by simp)
  | appendsGroup committed => exact appends_group_effect sys committed
  | completes => exact completes_effect sys
  | rests => exact rests_command sys (by simp) (by simp)

end

section

variable (connection : Nat)

/-- The Send that a connection enqueues. -/
def enqueues (sys : System) : Action → Option Send
  | .handleSend origin producerId =>
    if origin = connection ∧ (sys.connections connection).phase = .serving then
      ((sys.connections connection).producers producerId).map fun topic =>
        ⟨connection, producerId, topic, sys.sent⟩
    else none
  | _ => none

/-- The Send whose completion it handles. -/
def handles (sys : System) : Action → Option Send
  | .completePersistentSend origin _ =>
    if origin = connection ∧ (sys.connections connection).phase = .serving then
      (sys.connections connection).connAppendRx.head?.map Completion.send
    else none
  | _ => none

/-- How often a Send of the connection is in the queue, with the worker, or in the channel. -/
def underWay (sys : System) (send : Send) : Nat :=
  (if send.connection = connection then sys.queue.count send + sys.batch.count send +
    (sys.completing.map Completion.send).count send else 0) +
      ((sys.connections connection).connAppendRx.map Completion.send).count send

theorem under_way_set (sys : System) (other : Nat) (cnx : ServerCnx)
    (kept : cnx.connAppendRx = (sys.connections other).connAppendRx) (send : Send) :
    underWay connection (setConnection sys other cnx) send = underWay connection sys send := by
  by_cases here : connection = other
  · subst here
    simp [underWay, setConnection, kept]
  · simp [underWay, setConnection, here]

theorem handles_other {action : Action} (sys : System)
    (other : ∀ connection fed, action ≠ .completePersistentSend connection fed) :
    handles connection sys action = none := by
  cases action with
  | completePersistentSend origin fed => exact absurd rfl (other origin fed)
  | _ => rfl

theorem under_way_taken {sys : System} {completion : Completion} {rest : List Completion}
    (origin : Nat) (serving : (sys.connections origin).phase = .serving)
    (received : (sys.connections origin).connAppendRx = completion :: rest) (fed : Bool)
    (phase : Phase) (send : Send) :
    underWay connection (setConnection sys origin
        { sys.connections origin with phase := phase, connAppendRx := rest }) send +
      (handles connection sys (.completePersistentSend origin fed)).toList.count send =
        underWay connection sys send := by
  by_cases here : origin = connection
  · subst here
    simp [underWay, setConnection, handles, serving, received, count_cons, Nat.add_assoc]
  · simp [underWay, setConnection, handles, here, Ne.symm here]

/-- No Send comes from nowhere or is there twice. -/
theorem under_way_effect {sys after : System} {action : Action} (effect : Effect sys action after)
    (send : Send) :
    underWay connection after send + (handles connection sys action).toList.count send ≤
      underWay connection sys send + (enqueues connection sys action).toList.count send := by
  cases effect with
  | rests action worker channel =>
    have nothing : handles connection sys action = none := by
      cases action with
      | completePersistentSend origin fed =>
        simp only [handles]
        split_ifs with own
        · rw [← own.1, channel origin fed rfl (own.1 ▸ own.2)]
          rfl
        · rfl
      | _ => rfl
    simp [nothing]
  | wakes origin fed completion rest serving received written =>
    exact (under_way_taken connection origin serving received fed _ send).le.trans
      (Nat.le_add_right _ _)
  | breaks origin fed completion rest serving received failed =>
    exact (under_way_taken connection origin serving received fed _ send).le.trans
      (Nat.le_add_right _ _)
  | leaves action other serving command notTaken =>
    rw [under_way_set _ _ _ _ (by rfl), handles_other _ _ notTaken]
    exact Nat.le_add_right _ _
  | registers | unregisters =>
    rw [under_way_set _ _ _ _ (by rfl), handles_other _ _ (by simp)]
    exact Nat.le_add_right _ _
  | enqueues origin producerId topic serving producer =>
    rw [handles_other _ _ (by simp)]
    by_cases here : origin = connection
    · subst here
      simp only [underWay, enqueues, serving, producer, count_append, and_self, if_true,
        Option.map_some, Option.toList_some, Option.toList_none, count_nil]
      split_ifs <;> omega
    · have foreign : send.connection = connection →
          [Send.mk origin producerId topic sys.sent].count send = 0 := by
        rintro rfl
        exact count_eq_zero.mpr fun member => here (mem_singleton.mp member ▸ rfl)
      simp only [underWay, count_append, Option.toList_none, count_nil]
      split_ifs with own
      · rw [foreign own]
        omega
      · omega
  | cleans other ending =>
    rw [handles_other _ _ (by simp)]
    by_cases here : connection = other
    · subst here
      simp only [underWay, setConnection, update_self, map_nil, count_nil, Option.toList_none]
      omega
    · simp [underWay, setConnection, here]
  | takes count completed =>
    rw [handles_other _ _ (by simp)]
    have split : (sys.queue.take count).count send + (sys.queue.drop count).count send =
        sys.queue.count send := by rw [← count_append, take_append_drop]
    simp only [underWay, Option.toList_none, count_nil]
    split_ifs <;> omega
  | appends committed grouped completed =>
    rw [handles_other _ _ (by simp)]
    have split := (filter_append_perm grouped sys.batch).count_eq send
    rw [count_append] at split
    have same : (sys.batch.filter grouped).map (Completion.send ∘ fun send => ⟨send, committed⟩) =
        sys.batch.filter grouped := map_id _
    simp only [underWay, completed, map_map, same, map_nil, Option.toList_none, count_nil]
    split_ifs <;> omega
  | loses completion rest completing closed =>
    rw [handles_other _ _ (by simp)]
    simp only [underWay, completing, map_cons, count_cons, Option.toList_none, count_nil]
    split_ifs <;> omega
  | hands completion rest completing =>
    rw [handles_other _ _ (by simp)]
    by_cases here : completion.send.connection = connection
    · simp only [underWay, completing, setConnection, here, update_self, map_cons,
        map_append, map_nil, count_cons, count_append, Option.toList_none, count_nil]
      split_ifs with own same foreign
      · omega
      · omega
      · exact absurd ((beq_iff_eq.mp foreign) ▸ here) own
      · omega
    · simp only [underWay, completing, setConnection, update_of_ne (Ne.symm here), map_cons,
        count_cons, Option.toList_none, count_nil]
      split_ifs <;> omega

end

/-- Whoever has a Send under way is still there to be woken for it. -/
def Registered (sys : System) : Prop :=
  ∀ send, Outstanding sys send → (sys.connections send.connection).phase = .serving ∧
    (sys.connections send.connection).producers send.producerId = some send.topic

variable {sys after : System} {send : Send} {action : Action}

theorem outstanding_iff : Outstanding sys send ↔ 0 < underWay send.connection sys send := by
  simp only [Outstanding, underWay, if_true, Nat.add_pos_iff_pos_or_pos, count_pos_iff, or_assoc]

theorem outstanding_effect (effect : Effect sys action after)
    (outstanding : Outstanding after send) :
    Outstanding sys send ∨ (after.connections send.connection).phase = .serving ∧
      (after.connections send.connection).producers send.producerId = some send.topic := by
  have counted := under_way_effect send.connection effect send
  rw [outstanding_iff] at outstanding ⊢
  cases effect with
  | rests => exact .inl outstanding
  | leaves action connection =>
    rw [under_way_set _ _ _ _ (by rfl)] at outstanding
    exact .inl outstanding
  | enqueues connection producerId topic serving producer =>
    by_cases new : send = ⟨connection, producerId, topic, sys.sent⟩
    · rw [new]
      exact .inr ⟨serving, producer⟩
    · left
      simpa [underWay, count_singleton, Ne.symm new] using outstanding
  | registers | unregisters | wakes | breaks | cleans | takes | appends | loses | hands =>
    exact .inl (outstanding.trans_le (Nat.le_of_add_right_le counted))

theorem producer_effect (effect : Effect sys action after) {connection producerId topic}
    (serving : (after.connections connection).phase = .serving)
    (producer : (sys.connections connection).producers producerId = some topic) :
    (after.connections connection).producers producerId = some topic ∨
      action = .handleCloseProducer connection producerId := by
  have kept {other : Nat} {cnx : ServerCnx}
      (same : other = connection → cnx.phase = .serving →
        cnx.producers producerId = (sys.connections connection).producers producerId)
      (stays : ((setConnection sys other cnx).connections connection).phase = .serving) :
      ((setConnection sys other cnx).connections connection).producers producerId = some topic := by
    by_cases here : connection = other
    · subst here
      simp only [setConnection, update_self] at stays ⊢
      rw [same rfl stays, producer]
    · simpa [setConnection, here] using producer
  cases effect with
  | rests | enqueues | takes | appends | loses => exact .inl producer
  | registers other newId newTopic _ free =>
    left
    apply kept _ serving
    rintro rfl _
    have different : producerId ≠ newId := by
      intro same
      rw [same, free] at producer
      cases producer
    simp [different]
  | unregisters other closedId _ =>
    by_cases same : connection = other ∧ producerId = closedId
    · right
      rw [same.1, same.2]
    left
    apply kept _ serving
    rintro rfl _
    have different : producerId ≠ closedId := fun equal => same ⟨rfl, equal⟩
    simp [different]
  | wakes other fed completion rest =>
    left
    have stays : ((setConnection sys other { sys.connections other with
      connAppendRx := rest }).connections connection).phase = .serving := serving
    exact kept (fun same _ => by rw [same]) stays
  | breaks | leaves => exact .inl (kept (fun same _ => by rw [same]) serving)
  | cleans other =>
    left
    apply kept _ serving
    rintro rfl impossible
    cases impossible
  | hands completion rest =>
    left
    by_cases here : connection = completion.send.connection
    · simpa [setConnection, ← here] using producer
    · simpa [setConnection, here] using producer

theorem registered_start : Registered start := by
  intro send outstanding
  rcases outstanding with queued | batched | completing | received
  · cases queued
  · cases batched
  · cases completing
  · cases received

theorem registered_step (registered : Registered sys) (careful : Careful sys action) :
    Registered (step sys action) := by
  intro send outstanding
  rcases outstanding_effect (step_effect sys action) outstanding with before | new
  · obtain ⟨serving, producer⟩ := registered send before
    have stays : ((step sys action).connections send.connection).phase = .serving := by
      by_contra left
      exact careful.ending send.connection serving left send outstanding rfl
    refine ⟨stays, ?_⟩
    rcases producer_effect (step_effect sys action) stays producer with kept | closed
    · exact kept
    · exact absurd rfl (careful.closing _ _ closed send before rfl)
  · exact new

variable {message : Nat} {topic : Text}

theorem history_effect (effect : Effect sys action after) :
    ∃ new, after.history = sys.history ++ new := by
  cases effect with
  | wakes | appends => exact ⟨_, rfl⟩
  | _ => exact ⟨[], (append_nil _).symm⟩

variable {history : List Event}

theorem Woken.grows (woken : Woken history message topic) (new : List Event) :
    Woken (history ++ new) message topic := by
  obtain ⟨before, later, split, member⟩ := woken
  refine ⟨before, later ++ new, by simp [split], List.mem_append_left _ member⟩

theorem woken_concat (committed : .committed message topic ∈ history) :
    Woken (history ++ [.dispatched topic]) message topic := by
  obtain ⟨before, later, split⟩ := List.append_of_mem committed
  exact ⟨before, later ++ [.dispatched topic], by simp [split], by simp⟩

def InHand (sys : System) (send : Send) : Prop :=
  { send := send, committed := true } ∈ sys.completing

def InChannel (sys : System) (send : Send) : Prop :=
  { send := send, committed := true } ∈ (sys.connections send.connection).connAppendRx

/-- Every committed message is awake, or its completion is on the way. -/
def Announced (sys : System) : Prop :=
  ∀ message topic, .committed message topic ∈ sys.history →
    Woken sys.history message topic ∨
      ∃ send : Send, send.message = message ∧ send.topic = topic ∧
        (InHand sys send ∨ InChannel sys send)

theorem InHand.outstanding (inHand : InHand sys send) : Outstanding sys send :=
  .inr (.inr (.inl (List.mem_map_of_mem inHand)))

theorem InChannel.outstanding (inChannel : InChannel sys send) : Outstanding sys send :=
  .inr (.inr (.inr (List.mem_map_of_mem inChannel)))

theorem nearer {head completion : Completion} {rest} (member : completion ∈ head :: rest)
    (different : completion ≠ head) :
    completion ∈ rest ∧ rest.idxOf completion < (head :: rest).idxOf completion := by
  refine ⟨(mem_cons.mp member).resolve_left different, ?_⟩
  rw [idxOf_cons_ne _ different.symm]
  exact Nat.lt_succ_self _

def handRank (sys : System) (send : Send) : Nat :=
  sys.completing.idxOf { send := send, committed := true }

def channelRank (sys : System) (send : Send) : Nat :=
  (sys.connections send.connection).connAppendRx.idxOf { send := send, committed := true }

section

variable (registered : Registered sys) (effect : Effect sys action after)
include registered effect

theorem in_hand_effect (inHand : InHand sys send) :
    InChannel after send ∨ InHand after send ∧ handRank after send ≤ handRank sys send ∧
      (action = .completes → handRank after send < handRank sys send) := by
  have nonempty : sys.completing ≠ [] := ne_nil_of_mem inHand
  have passed {completion : Completion} {rest : List Completion}
      (completing : sys.completing = completion :: rest)
      (different : { send := send, committed := true } ≠ completion) :
      { send := send, committed := true } ∈ rest ∧
        rest.idxOf { send := send, committed := true } < handRank sys send := by
    unfold InHand at inHand
    rw [completing] at inHand
    rw [handRank, completing]
    exact nearer inHand different
  cases effect with
  | rests action worker channel =>
    exact .inr ⟨inHand, le_rfl, fun same => absurd (worker same) nonempty⟩
  | registers | enqueues | unregisters | wakes | breaks | cleans =>
    exact .inr ⟨inHand, le_rfl, fun impossible => by cases impossible⟩
  | leaves action connection serving command =>
    exact .inr ⟨inHand, le_rfl, fun same => absurd same command⟩
  | takes count completed | appends committed grouped completed =>
    exact absurd completed nonempty
  | loses completion rest completing closed =>
    have different : { send := send, committed := true } ≠ completion := by
      rintro rfl
      rw [(registered send inHand.outstanding).1] at closed
      cases closed
    obtain ⟨member, lower⟩ := passed completing different
    exact .inr ⟨member, lower.le, fun _ => lower⟩
  | hands completion rest completing =>
    by_cases same : { send := send, committed := true } = completion
    · left
      subst same
      simp [InChannel, setConnection]
    · obtain ⟨member, lower⟩ := passed completing same
      exact .inr ⟨member, lower.le, fun _ => lower⟩

theorem in_channel_effect
    (writing : ∀ connection fed, action = .completePersistentSend connection fed → fed = true)
    (inChannel : InChannel sys send) (committed : .committed send.message send.topic ∈ sys.history)
    :
    Woken after.history send.message send.topic ∨
      InChannel after send ∧ channelRank after send ≤ channelRank sys send ∧
      ((∃ fed, action = .completePersistentSend send.connection fed) →
        channelRank after send < channelRank sys send) := by
  obtain ⟨serving, producer⟩ := registered send inChannel.outstanding
  have passed {completion : Completion} {rest : List Completion}
      (received : (sys.connections send.connection).connAppendRx = completion :: rest)
      (different : { send := send, committed := true } ≠ completion) :
      { send := send, committed := true } ∈ rest ∧
        rest.idxOf { send := send, committed := true } < channelRank sys send := by
    unfold InChannel at inChannel
    rw [received] at inChannel
    rw [channelRank, received]
    exact nearer inChannel different
  -- A step that leaves the channel alone, and is not one of this connection's takes.
  have unchanged {other : System} (same : (other.connections send.connection).connAppendRx =
        (sys.connections send.connection).connAppendRx)
      (idle : ¬ ∃ fed, action = .completePersistentSend send.connection fed) :
      InChannel other send ∧ channelRank other send ≤ channelRank sys send ∧
        ((∃ fed, action = .completePersistentSend send.connection fed) →
          channelRank other send < channelRank sys send) := by
    simp only [InChannel, channelRank, same]
    exact ⟨inChannel, le_rfl, fun taken => absurd taken idle⟩
  have kept {other : Nat} {cnx : ServerCnx}
      (same : send.connection = other → cnx.connAppendRx = (sys.connections other).connAppendRx) :
      ((setConnection sys other cnx).connections send.connection).connAppendRx =
        (sys.connections send.connection).connAppendRx := by
    by_cases here : send.connection = other
    · simp only [setConnection, here, update_self]
      exact same here
    · simp [setConnection, here]
  cases effect with
  | rests action worker channel =>
    refine .inr (unchanged rfl ?_)
    rintro ⟨fed, same⟩
    have empty := channel send.connection fed same serving
    rw [InChannel, empty] at inChannel
    cases inChannel
  | enqueues | takes | appends | loses => exact .inr (unchanged rfl (by simp))
  | registers | unregisters => exact .inr (unchanged (kept fun _ => rfl) (by simp))
  | leaves action connection _ _ other =>
    exact .inr (unchanged (kept fun _ => rfl) (by simp [other]))
  | cleans connection ending =>
    refine .inr (unchanged (kept ?_) (by simp))
    intro here
    rw [here, ending] at serving
    cases serving
  | wakes connection fed completion rest _ received written =>
    by_cases here : send.connection = connection
    · subst here
      by_cases same : { send := send, committed := true } = completion
      · left
        subst same
        simp only [spawned, producer]
        exact woken_concat committed
      · right
        obtain ⟨member, lower⟩ := passed received same
        simp only [InChannel, channelRank, setConnection, update_self]
        exact ⟨member, lower.le, fun _ => lower⟩
    · exact .inr (unchanged (by simp [setConnection, here]) (by rintro ⟨_, ⟨⟩⟩; exact here rfl))
  | breaks connection fed completion rest _ received failed =>
    right
    by_cases here : send.connection = connection
    · subst here
      have different : { send := send, committed := true } ≠ completion := by
        rintro rfl
        rw [writing _ _ rfl] at failed
        cases failed
      obtain ⟨member, lower⟩ := passed received different
      simp only [InChannel, channelRank, setConnection, update_self]
      exact ⟨member, lower.le, fun _ => lower⟩
    · exact unchanged (by simp [setConnection, here]) (by rintro ⟨_, ⟨⟩⟩; exact here rfl)
  | hands completion rest completing =>
    right
    by_cases here : send.connection = completion.send.connection
    · simp only [InChannel, channelRank, setConnection, here, update_self]
      rw [← here, idxOf_append_of_mem inChannel]
      exact ⟨mem_append_left _ inChannel, le_rfl, by simp⟩
    · exact unchanged (by simp [setConnection, here]) (by simp)

end

theorem committed_effect (effect : Effect sys action after)
    (committed : .committed message topic ∈ after.history) :
    .committed message topic ∈ sys.history ∨
      ∃ send : Send, send.message = message ∧ send.topic = topic ∧ InHand after send := by
  cases effect with
  | wakes connection fed completion rest =>
    left
    rcases mem_append.mp committed with old | new
    · exact old
    · unfold spawned at new
      split at new <;> simp at new
  | appends success grouped completed =>
    rcases mem_append.mp committed with old | new
    · exact .inl old
    right
    cases success with
    | false => cases new
    | true =>
      obtain ⟨send, member, same⟩ := mem_map.mp new
      cases same
      exact ⟨send, rfl, rfl, mem_map.mpr ⟨send, member, rfl⟩⟩
  | _ => exact .inl committed

theorem announced_step (registered : Registered sys) (announced : Announced sys)
    (careful : Careful sys action) : Announced (step sys action) := by
  intro message topic committed
  have effect := step_effect sys action
  rcases committed_effect effect committed with old | ⟨send, number, name, inHand⟩
  · rcases announced message topic old with woken | ⟨send, rfl, rfl, inHand | inChannel⟩
    · left
      obtain ⟨new, grown⟩ := history_effect effect
      rw [grown]
      exact woken.grows new
    · rcases in_hand_effect registered effect inHand with handed | ⟨kept, _⟩
      · exact .inr ⟨send, rfl, rfl, .inr handed⟩
      · exact .inr ⟨send, rfl, rfl, .inl kept⟩
    · rcases in_channel_effect registered effect careful.writing inChannel old with
        woken | ⟨kept, _⟩
      · exact .inl woken
      · exact .inr ⟨send, rfl, rfl, .inr kept⟩
  · exact .inr ⟨send, number, name, .inl inHand⟩

theorem run_invariant (run : Run step Careful start sys) : Registered sys ∧ Announced sys := by
  apply run.invariant
  · refine ⟨registered_start, ?_⟩
    intro message topic committed
    cases committed
  · intro state action sound careful
    exact ⟨registered_step sound.1 careful, announced_step sound.1 sound.2 careful⟩

variable (behavior : Behavior step Careful start) {time : Nat}

theorem history_next {message topic}
    (committed : .committed message topic ∈ (behavior.states time).history) :
    .committed message topic ∈ (behavior.states (time + 1)).history := by
  rw [behavior.next]
  obtain ⟨new, grown⟩ := history_effect (step_effect (behavior.states time) (behavior.actions time))
  rw [grown]
  exact mem_append_left _ committed

theorem channel_leads_to_woken (fair : Fair behavior)
    (inChannel : InChannel (behavior.states time) send)
    (committed : .committed send.message send.topic ∈ (behavior.states time).history) :
    ∃ later ≥ time, Woken (behavior.states later).history send.message send.topic := by
  have approaches : behavior.Approaches
      (fun sys => InChannel sys send ∧ .committed send.message send.topic ∈ sys.history)
      (fun sys => Woken sys.history send.message send.topic)
      (fun action => ∃ fed, action = .completePersistentSend send.connection fed)
      (fun sys => channelRank sys send) := by
    intro time waits
    have effect := step_effect (behavior.states time) (behavior.actions time)
    rw [← behavior.next time] at effect
    rcases in_channel_effect (run_invariant (behavior.run time)).1 effect
        (behavior.permits time).writing waits.1 waits.2 with woken | ⟨kept, bound, lower⟩
    · exact .inl woken
    · exact .inr ⟨⟨kept, history_next behavior waits.2⟩, bound, lower⟩
  apply approaches.leads_to _ ⟨inChannel, committed⟩
  intro time
  obtain ⟨later, after, empty | taken⟩ := fair.connections send.connection time
  · refine ⟨later, after, ?_⟩
    rintro ⟨member, _⟩
    rw [InChannel, empty] at member
    cases member
  · exact ⟨later, after, fun _ => taken⟩

theorem hand_leads_to_channel (fair : Fair behavior) (inHand : InHand (behavior.states time) send)
    (committed : .committed send.message send.topic ∈ (behavior.states time).history) :
    ∃ later ≥ time, InChannel (behavior.states later) send ∧
      .committed send.message send.topic ∈ (behavior.states later).history := by
  have approaches : behavior.Approaches
      (fun sys => InHand sys send ∧ .committed send.message send.topic ∈ sys.history)
      (fun sys => InChannel sys send ∧ .committed send.message send.topic ∈ sys.history)
      (fun action => action = .completes) (fun sys => handRank sys send) := by
    intro time waits
    have effect := step_effect (behavior.states time) (behavior.actions time)
    rw [← behavior.next time] at effect
    have later := history_next behavior waits.2
    rcases in_hand_effect (run_invariant (behavior.run time)).1 effect waits.1 with
      handed | ⟨kept, bound, lower⟩
    · exact .inl ⟨handed, later⟩
    · exact .inr ⟨⟨kept, later⟩, bound, lower⟩
  apply approaches.leads_to _ ⟨inHand, committed⟩
  intro time
  obtain ⟨later, after, empty | taken⟩ := fair.worker time
  · refine ⟨later, after, ?_⟩
    rintro ⟨member, _⟩
    rw [InHand, empty] at member
    cases member
  · exact ⟨later, after, fun _ => taken⟩

/-- In every fair behavior whose steps are all careful, a dispatch is started for
every message that is committed. -/
theorem careful_commits_wake (behavior : Behavior step Careful start) (fair : Fair behavior) :
    EveryCommitWakes behavior := by
  intro time message topic committed
  rcases (run_invariant (behavior.run time)).2 message topic committed with
    woken | ⟨send, rfl, rfl, inHand | inChannel⟩
  · exact ⟨time, le_rfl, woken⟩
  · obtain ⟨handed, after, inChannel, committed⟩ :=
      hand_leads_to_channel behavior fair inHand committed
    obtain ⟨later, beyond, woken⟩ := channel_leads_to_woken behavior fair inChannel committed
    exact ⟨later, after.trans beyond, woken⟩
  · exact channel_leads_to_woken behavior fair inChannel committed

def topicOne : Text := ['t']

def topicTwo : Text := ['u']

def Settled (sys : System) : Prop :=
  sys.completing = [] ∧ ∀ connection, (sys.connections connection).connAppendRx = []

variable {permitted : System → Action → Prop}

theorem fair_of_settled (behavior : Behavior step permitted start) (quiet : Nat)
    (settled : ∀ time ≥ quiet, Settled (behavior.states time)) : Fair behavior where
  worker time :=
    ⟨max time quiet, le_max_left _ _, .inl (settled _ (le_max_right _ _)).1⟩
  connections connection time :=
    ⟨max time quiet, le_max_left _ _, .inl ((settled _ (le_max_right _ _)).2 connection)⟩

theorem step_rests (sys : System) : step sys .rests = sys := rfl

def thenRests {actions : List Action} (permits : Run.Permits step permitted start actions)
    (idles : ∀ sys, permitted sys .rests) : Behavior step permitted start :=
  .ofList permits .rests step_rests idles

variable {actions : List Action} (permits : Run.Permits step permitted start actions)
  (idles : ∀ sys, permitted sys .rests)

theorem then_rests_end {time : Nat} (after : actions.length ≤ time) :
    (thenRests permits idles).states time = actions.foldl step start :=
  Behavior.of_list_end permits .rests step_rests idles after

theorem fair_then_rests (settled : Settled (actions.foldl step start)) :
    Fair (thenRests permits idles) := by
  apply fair_of_settled _ actions.length
  intro time after
  rw [then_rests_end permits idles after]
  exact settled

theorem careful_of_serving {sys action}
    (serving : ∀ connection, ((step sys action).connections connection).phase = .serving)
    (kept : ∀ connection producerId, action ≠ .handleCloseProducer connection producerId)
    (writing : ∀ connection fed, action = .completePersistentSend connection fed → fed = true) :
    Careful sys action where
  closing connection producerId same := absurd same (kept connection producerId)
  ending connection _ left := absurd (serving connection) left
  writing := writing

theorem careful_rests (sys : System) : Careful sys .rests where
  closing connection producerId impossible := by cases impossible
  ending connection serving left := absurd serving left
  writing connection fed impossible := by cases impossible

def patientProducer : List Action :=
  [.handleProducer 0 0 topicOne, .handleSend 0 0, .takesBatch 1, .appendsGroup true, .completes,
    .completePersistentSend 0 true]

theorem patient_producer_permits : Run.Permits step Careful start patientProducer := by
  refine ⟨?_, ?_, ?_, ?_, ?_, ?_, trivial⟩
  all_goals
    apply careful_of_serving
    · intro connection
      rcases connection with _ | connection <;> rfl
    · simp
    · simp

theorem settled_of_empty {sys : System} (completed : sys.completing = [])
    (received : (sys.connections 0).connAppendRx = [])
    (others : ∀ connection, (sys.connections (connection + 1)).connAppendRx = []) :
    Settled sys := by
  refine ⟨completed, ?_⟩
  intro connection
  cases connection with
  | zero => exact received
  | succ connection => exact others connection

theorem careful_commits_wake_patient :
    .committed 0 topicOne ∈ (patientProducer.foldl step start).history ∧
      EveryCommitWakes (thenRests patient_producer_permits careful_rests) := by
  refine ⟨by decide, careful_commits_wake _ (fair_then_rests _ _ ?_)⟩
  exact settled_of_empty rfl rfl fun _ => rfl

/-- The producer is closed before its completion arrives. -/
def closedProducer : List Action :=
  [.handleProducer 0 0 topicOne, .handleSend 0 0, .handleCloseProducer 0 0, .takesBatch 1,
    .appendsGroup true, .completes, .completePersistentSend 0 true]

/-- And its id is given to a producer of another topic. -/
def reusedProducerId : List Action :=
  [.handleProducer 0 0 topicOne, .handleSend 0 0, .handleCloseProducer 0 0,
    .handleProducer 0 0 topicTwo, .takesBatch 1, .appendsGroup true, .completes,
    .completePersistentSend 0 true]

def closedConnection : List Action :=
  [.handleProducer 0 0 topicOne, .handleSend 0 0, .ends 0, .cleanup 0, .takesBatch 1,
    .appendsGroup true, .completes]

/-- A failed append of another producer ends the connection. -/
def failedAppend : List Action :=
  [.handleProducer 0 0 topicOne, .handleProducer 0 1 topicTwo, .handleSend 0 0, .handleSend 0 1,
    .takesBatch 2, .appendsGroup false, .completes, .appendsGroup true, .completes,
    .completePersistentSend 0 true, .cleanup 0]

theorem not_woken {message topic} (missing : .dispatched topic ∉ history) :
    ¬ Woken history message topic := by
  rintro ⟨before, after, rfl, member⟩
  apply missing
  exact mem_append_right _ (mem_cons_of_mem _ member)

def anyThenRests (actions : List Action) : Behavior step (fun _ _ => True) start :=
  thenRests (Run.permits_any step start actions) fun _ => trivial

def Strands (actions : List Action) : Prop :=
  Fair (anyThenRests actions) ∧ ¬ EveryCommitWakes (anyThenRests actions)

theorem stranded_of (message : Nat) (topic : Text) (settled : Settled (actions.foldl step start))
    (committed : .committed message topic ∈ (actions.foldl step start).history)
    (missing : .dispatched topic ∉ (actions.foldl step start).history) : Strands actions := by
  refine ⟨fair_then_rests _ _ settled, ?_⟩
  intro wakes
  obtain ⟨later, after, woken⟩ := wakes actions.length message topic (by
    rw [anyThenRests, then_rests_end _ _ le_rfl]
    exact committed)
  rw [anyThenRests, then_rests_end _ _ after] at woken
  exact not_woken missing woken

theorem committed_message_is_stranded : Strands closedProducer ∧ Strands reusedProducerId ∧
    Strands closedConnection ∧ Strands failedAppend := by
  refine ⟨stranded_of 0 topicOne ?_ (by decide) (by decide),
    stranded_of 0 topicOne ?_ (by decide) (by decide),
    stranded_of 0 topicOne ?_ (by decide) (by decide),
    stranded_of 1 topicTwo ?_ (by decide) (by decide)⟩
  all_goals exact settled_of_empty rfl rfl fun _ => rfl

end PulsarLite.Broker.PublishWakeup
