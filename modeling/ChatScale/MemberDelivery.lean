import ChatScale.DeliveryOrder

/-!
# What a member of a room is shown

A member is a connection that is to get all messages of a room above some
number, for example all that follow the ones that existed when it joined. While
it is served, the delivery service finds its instance in presence, the instance
is subscribed and the connection is in the room, whenever such a message comes.
-/

namespace ChatScale.MemberDelivery

open ChatScale.ByteText ChatScale.MessageContract ChatScale.TransitionSystem
open ChatScale.MessageStoreInvariants ChatScale.MessageStoreContents
open ChatScale.OutboxRelayModel (Record recordOf entryOf recordSeq)
open ChatScale.OutboxRelayOrder ChatScale.CausalOrder
open ChatScale.KafkaSessions (ConsumerMessage messageOf firstSuccesses first_successes_append
  mem_note_success)
open ChatScale.DeliveryPipeline ChatScale.RecordFanout ChatScale.ClientFrames
open ChatScale.DeliverySystem ChatScale.ServiceDelivery ChatScale.DeliveryOrder
open ChatScale.LiveHubModel (Dispatcher)

set_option autoImplicit false

variable {Caller Relay Partition Instance : Type} {Conn : Instance → Type}

structure Member {Instance : Type} (Conn : Instance → Type) where
  name : Instance
  conn : Conn name
  room : Bytes
  base : Nat

section Members

variable [∀ name, DecidableEq (Conn name)] {setup : Setup Caller Relay Partition Conn}

/-- The numbers that are on their way to the member or have come to it. -/
def coming (state : DeliverySystem.State setup) (member : Member Conn) : List Int :=
  comingSeqs (state.services member.name) member.conn member.room member.base

/-- The numbers above its base that the member was shown, in this order. -/
def shown (state : DeliverySystem.State setup) (member : Member Conn) : List Int :=
  writtenSeqs (state.services member.name) member.conn member.room member.base

/-- What a step must not do to a member: handle a message for it without finding
its instance, or lose the message in the instance. -/
def Served (member : Member Conn) (state : DeliverySystem.State setup) :
    DeliverySystem.Action Caller Relay Partition Conn → Prop
  | .handle partition presence executed =>
      ∀ message ∈ handledMessage (state.partitions partition), message.record.key = member.room →
        ∀ seq ∈ recordSeq message.record, (member.base : Int) < seq → executed.isNone = true →
          ∀ names ∈ (handle presence (messageOf message)).toOption,
            names.contains (setup.names member.name) = true ∧
              (state.services member.name).subscribed = true
  | .service name action => ∀ same : name = member.name,
      Attached (state.services member.name) member.conn member.room member.base (same ▸ action)
  | _ => True

instance [DecidableEq Instance] (member : Member Conn) (state : DeliverySystem.State setup)
    (action : DeliverySystem.Action Caller Relay Partition Conn) :
    Decidable (Served member state action) := by
  unfold Served
  split
  · infer_instance
  · infer_instance
  · exact isTrue trivial

/-- Every message handled with success is on its way, and none without those
before it. -/
structure MemberSound (member : Member Conn) (state : DeliverySystem.State setup) : Prop where
  covered : ∀ partition, ∀ offset ∈ firstSuccesses (state.partitions partition).events,
    ∀ message, (state.partitions partition).log[offset]? = some message →
      message.record.key = member.room → ∀ seq, recordSeq message.record = some seq →
        (member.base : Int) < seq → seq ∈ coming state member
  causal : Causal (Follows member.base) (coming state member)

variable {member : Member Conn} {state next : DeliverySystem.State setup}

theorem member_sound_grows {after : DeliverySystem.State setup} (sound : MemberSound member state)
    {more : List Int} (grown : coming after member = coming state member ++ more)
    (met : ∀ seq ∈ more, ∀ other, Follows member.base seq other → other ∈ coming state member)
    (handled : ∀ partition, ∀ offset ∈ firstSuccesses (after.partitions partition).events,
      ∀ message, (after.partitions partition).log[offset]? = some message →
        (offset ∈ firstSuccesses (state.partitions partition).events ∧
          (state.partitions partition).log[offset]? = some message) ∨
        (message.record.key = member.room → ∀ seq, recordSeq message.record = some seq →
          (member.base : Int) < seq → seq ∈ more)) : MemberSound member after where
  covered := by
    intro partition offset success message placed room seq numbered higher
    rw [grown, List.mem_append]
    rcases handled partition offset success message placed with ⟨before, there⟩ | new
    · exact .inl (sound.covered partition offset before message there room seq numbered higher)
    · exact .inr (new room seq numbered higher)
  causal := by
    rw [grown]
    exact causal_append sound.causal met

variable [DecidableEq Partition]

theorem handle_step_member [DecidableEq Relay] (keeps : KeepsJson setup.environment.columns)
    (system : SystemSound state) (sound : MemberSound member state) {partition : Partition}
    {presence : Presence} {executed : Option (Bytes → Bool)}
    (served : Served member state (.handle partition presence executed))
    (stepped : handleStep state partition presence executed = some next) :
    MemberSound member next := by
  rcases handle_step_cases stepped with ⟨offset, message, success, published, session, handling,
    placed, here, outcome, moved, sameLog, events, rfl⟩
  have logged := system.logs.known partition message (List.mem_of_getElem? placed)
  rcases system_carries keeps system message.record logged with ⟨event, carries⟩
  have read (encodes : message.timestamp.encodes = true) :
      payloadSeq member.room (messageOf message).marshal = _ :=
    payload_seq_event carries ⟨message.headers, message.timestamp, encodes, rfl⟩ member.room
  have number := carries_seq carries
  rcases accept_coming (state.services member.name) member.conn member.room member.base
    (received setup.channelPrefix (setup.names member.name) published) with
    ⟨more, grown, origin, arrives⟩
  refine member_sound_grows sound grown ?_ ?_
  · -- The earlier messages stand before this one in its partition, so they have been handled.
    intro seq added other follows
    rcases origin seq added with ⟨_, text, got, textSeq⟩
    rcases outcome_texts outcome got with ⟨encodes, same⟩
    rw [same, read encodes] at textSeq
    split_ifs at textSeq with room
    cases textSeq
    have positive : 1 ≤ other := by
      have higher := follows.1
      omega
    rcases causal_offset (system.logs.causal partition) placed number positive follows.2 with
      ⟨before, less, earlier, there, key, smaller⟩
    rcases (system.sessions partition).progress with ⟨count, progress⟩
    have reached : offset ≤ count := progress.offset offset (by rw [handling]; rfl)
    have handled : before ∈ firstSuccesses (state.partitions partition).events := by
      rw [progress.firsts, List.mem_range]
      omega
    have sameRoom : earlier.record.key = member.room := by rw [key, ← carries.keyed, room]
    exact sound.covered partition before handled earlier there sameRoom other smaller follows.1
  · intro other place handled found there
    rw [update_log sameLog other] at there
    by_cases same : other = partition
    · subst same
      simp only [Function.update_self, events, KafkaSessions.State.record,
        first_successes_append, mem_note_success] at handled
      rcases handled with before | ⟨returned, rfl⟩
      · exact .inl ⟨before, there⟩
      · cases returned
        cases placed.symm.trans there
        refine .inr ?_
        intro room seq numbered higher
        rcases outcome_success outcome with ⟨finished, names, answered, reaches⟩
        rcases served message here room seq numbered higher finished names
          (by rw [answered]; rfl) with ⟨listed, subscribed⟩
        cases number.symm.trans numbered
        have sameRoom : event.roomID = member.room := by rw [carries.keyed, room]
        have reached := reaches _ (List.contains_iff_mem.mp listed)
        rcases outcome_texts outcome reached with ⟨encodes, _⟩
        exact arrives subscribed _ reached event.roomSeq
          ((read encodes).trans (if_pos sameRoom)) higher
    · simp only [Function.update_of_ne same] at handled
      exact .inl ⟨handled, there⟩

variable [Fintype Caller] [DecidableEq Caller] [DecidableEq Relay] [DecidableEq Instance]

theorem member_step_sound (keeps : KeepsJson setup.environment.columns)
    (system : SystemSound state) (sound : MemberSound member state)
    {action : DeliverySystem.Action Caller Relay Partition Conn}
    (served : Served member state action) (stepped : DeliverySystem.step state action = some next) :
    MemberSound member next := by
  cases action with
  | relay action timestamp =>
      rcases Option.map_eq_some_iff.mp stepped with ⟨relay, _, rfl⟩
      refine ⟨?_, sound.causal⟩
      intro partition offset success message placed
      -- Only messages that were there already have been handled.
      have bound := (system.sessions partition).handled offset success
      rw [append_records_log, List.getElem?_append_left bound] at placed
      exact sound.covered partition offset success message placed
  | session partition action =>
      rcases Option.map_eq_some_iff.mp stepped with ⟨session, sessionStepped, rfl⟩
      rcases session_step_cases sessionStepped with ⟨_, sameLog, sameFirsts⟩
      refine ⟨?_, sound.causal⟩
      intro other offset success message placed
      rw [update_log sameLog other] at placed
      by_cases same : other = partition
      · subst same
        simp only [Function.update_self] at success
        exact sound.covered other offset ((sameFirsts offset).mp success) message placed
      · simp only [Function.update_of_ne same] at success
        exact sound.covered other offset success message placed
  | handle partition presence executed => exact handle_step_member keeps system sound served stepped
  | service name action =>
      rcases Option.map_eq_some_iff.mp stepped with ⟨service, serviceStepped, rfl⟩
      have kept : coming { state with services := Function.update state.services name service }
          member = coming state member := by
        by_cases same : name = member.name
        · subst same
          simp only [coming, Function.update_self]
          exact service_step_coming (system_carries keeps system) (system.services member.name)
            (served rfl) serviceStepped
        · have other : member.name ≠ name := fun equal => same equal.symm
          simp only [coming, Function.update_of_ne other]
      exact ⟨by rw [kept]; exact sound.covered, by rw [kept]; exact sound.causal⟩

omit [Fintype Caller] [DecidableEq Caller] [DecidableEq Relay] [DecidableEq Instance]
  [DecidableEq Partition] in
theorem initial_member_sound (member : Member Conn) :
    MemberSound member (DeliverySystem.initial setup) where
  covered := by simp [DeliverySystem.initial, KafkaSessions.initial, firstSuccesses]
  causal := causal_nil

theorem reachable_member_sound (keeps : KeepsJson setup.environment.columns)
    (reached : Reachable DeliverySystem.step (Served member) (DeliverySystem.initial setup) state) :
    SystemSound state ∧ MemberSound member state :=
  reachable_invariant (fun state => SystemSound state ∧ MemberSound member state)
    ⟨initial_system_sound, initial_member_sound member⟩
    (fun _ _ _ sound served stepped => ⟨system_step_sound keeps sound.1 stepped,
      member_step_sound keeps sound.1 sound.2 served stepped⟩) reached

end Members

section Contents

variable {setup : Setup Caller Relay Partition Conn}

/-- The event that a client is shown is that of a stored message. -/
structure Stands (state : DeliverySystem.State setup) (row : MessageStoreModel.OutboxRow)
    (event : Event) : Prop where
  listed : row ∈ state.relay.store.db.outbox
  shownAs : ∃ caller accepted, ∃ message ∈ state.relay.store.db.messages,
    Writes setup.environment.columns (setup.inputs caller) message (entryOf row) accepted ∧
      ShownAs event accepted message.payload

variable {state : DeliverySystem.State setup}

theorem stands_number {row : MessageStoreModel.OutboxRow} {event : Event}
    (stands : Stands state row event) :
    event.roomID = row.roomID ∧ event.roomSeq = row.roomSeq := by
  rcases stands.shownAs with ⟨_, accepted, message, _, writes, same⟩
  rcases writes.entry with ⟨_, _, _, _, entry⟩
  have room : row.roomID = accepted.roomID := congrArg OutboxRelayModel.Entry.roomID entry
  have seq : row.roomSeq = accepted.roomSeq := congrArg OutboxRelayModel.Entry.roomSeq entry
  rw [room, seq]
  exact ⟨same.roomID, same.roomSeq⟩

/-- It is what everyone decodes the stored row to. -/
theorem stands_decoded (keeps : KeepsJson setup.environment.columns)
    {row : MessageStoreModel.OutboxRow} {event : Event} (stands : Stands state row event) :
    ∃ stored, unmarshalEvent row.event = some stored ∧ ShownAs event stored stored.payload := by
  rcases stands.shownAs with ⟨_, accepted, message, _, writes, same⟩
  rcases stored_event_decoded keeps writes with ⟨raw, decoded, kept⟩
  rcases writes.message with ⟨id, payload, _, columnKept, rfl⟩
  refine ⟨_, decoded, same.version, same.messageID, same.clientMessageID, same.roomID,
    same.roomSeq, same.createdAt, ?_⟩
  exact same_value_trans same.payload
    (same_value_trans (column_value keeps columnKept) (same_value_symm kept))

/-- What any client is shown comes from the store. -/
theorem shown_stands [DecidableEq Relay] (keeps : KeepsJson setup.environment.columns)
    (sound : SystemSound state) {name : Instance} {conn : Conn name} {frame : Bytes}
    (written : frame ∈ (state.services name).written conn) {event : Event}
    (decoded : decodeServerFrame frame = .ok (.event event)) : ∃ row, Stands state row event := by
  have enqueued := ((sound.services name).lines conn).ordered.subset written
  rcases (sound.services name).enqueued conn frame enqueued with
    answer | ⟨record, carried, shown, logged, shows⟩
  · exact absurd decoded (answer_not_event answer event)
  · cases shows.decoded.symm.trans decoded
    rcases shows.same with ⟨raw, rfl, same⟩
    rcases logged_carries keeps sound.relay sound.contents logged with
      ⟨row, listed, _, caller, accepted, message, messageListed, writes, stored, carries, kept⟩
    cases shows.carries.decoded.symm.trans carries.decoded
    refine ⟨row, listed, caller, accepted, message, messageListed, writes, ?_⟩
    refine ⟨rfl, rfl, rfl, rfl, rfl, rfl, ?_⟩
    rcases writes.message with ⟨id, payload, _, columnKept, rfl⟩
    exact same_value_trans same
      (same_value_trans kept (same_value_symm (column_value keeps columnKept)))

theorem shown_frame [∀ name, DecidableEq (Conn name)] {member : Member Conn} {seq : Int}
    (seen : seq ∈ shown state member) :
    (member.base : Int) < seq ∧ ∃ frame ∈ (state.services member.name).written member.conn,
      ∃ event, decodeServerFrame frame = .ok (.event event) ∧ event.roomID = member.room ∧
        event.roomSeq = seq := by
  rcases mem_above.mp seen with ⟨found, higher⟩
  rcases List.mem_filterMap.mp found with ⟨frame, written, read⟩
  refine ⟨higher, frame, written, ?_⟩
  unfold shownSeq at read
  split at read
  · rename_i event decoded
    split_ifs at read with room
    cases read
    exact ⟨event, decoded, room, rfl⟩
  · cases read

theorem shown_number [∀ name, DecidableEq (Conn name)] [DecidableEq Relay]
    (keeps : KeepsJson setup.environment.columns) (sound : SystemSound state)
    {member : Member Conn} {seq : Int} (seen : seq ∈ shown state member) :
    (member.base : Int) < seq ∧
      seq ≤ MessageStoreModel.lastSeq state.relay.store.db member.room := by
  rcases shown_frame seen with ⟨higher, frame, written, event, decoded, room, number⟩
  rcases shown_stands keeps sound written decoded with ⟨row, stands⟩
  rcases stands_number stands with ⟨sameRoom, sameSeq⟩
  have bound := (outbox_seq_le sound.relay.store.database stands.listed).2
  rw [← sameRoom, ← sameSeq, room, number] at bound
  exact ⟨higher, bound⟩

end Contents

section Rest

/-- Nothing waits between the store and the member's socket. -/
structure AtRest {setup : Setup Caller Relay Partition Conn} (state : DeliverySystem.State setup)
    (member : Member Conn) : Prop where
  published : ∀ row ∈ state.relay.store.db.outbox, row.published = true
  marked : (state.partitions (setup.partitionOf member.room)).position =
    (state.partitions (setup.partitionOf member.room)).log.length
  queue : (state.services member.name).queue = []
  idle : (state.services member.name).hub.dispatcher = .idle
  pump : ((state.services member.name).hub.conns member.conn).pump = .waiting
  drained : ((state.services member.name).hub.conns member.conn).send = []

end Rest

section Samples

/-- Two clients post a message each, and the room has a connection on each of two
instances. -/
def pairSetup : Setup (Fin 2) Unit Unit (fun _ : Bool => Unit) where
  environment := jsonRelay
  inputs := twoClients
  partitionOf := fun _ => ()
  channelPrefix := ascii "instance:"
  names := instanceName
  profiles := fun _ => ann

def pairMember (name : Bool) : Member (fun _ : Bool => Unit) := ⟨name, (), ascii "lobby", 0⟩

def pairJoins (name : Bool) : List (DeliverySystem.Action (Fin 2) Unit Unit fun _ : Bool => Unit) :=
  [.service name .subscribe, .service name (.connection () .configure),
    .service name (.register ()), .service name (.connection () .startPump)]

def pairShows (name : Bool) : List (DeliverySystem.Action (Fin 2) Unit Unit fun _ : Bool => Unit) :=
  [.service name (.receive [()]), .service name .send, .service name .release,
    .service name (.connection () .take), .service name (.connection () .write)]

def pairDelivery : List (DeliverySystem.Action (Fin 2) Unit Unit fun _ : Bool => Unit) :=
  [.session () .receive,
    .handle () (fun _ => .ok (some [instanceName false, instanceName true])) none,
    .session () .mark] ++ pairShows true ++ pairShows false

/-- The relay dies after it has appended the first record, and publishes the
first message again before the second. -/
def pairRun : List (DeliverySystem.Action (Fin 2) Unit Unit fun _ : Bool => Unit) :=
  twoAccepts.map (fun action => .relay (.store action) noon.time.toTime) ++
  pairJoins false ++ pairJoins true ++
  [OutboxRelayModel.RelayMove.start, .fetch, .next, .append, .halt false, .start, .fetch, .next,
    .append, .succeed, .mark, .next, .fetch, .next, .append, .succeed, .mark].map
      (fun move => .relay (.relay () move) noon.time.toTime) ++
  [.session () (.start 0)] ++ pairDelivery ++ pairDelivery ++ pairDelivery

/-- Nothing waits and the pump is back at its channel. -/
def isRested (state : DeliverySystem.State pairSetup) (name : Bool) : Bool :=
  state.relay.store.db.outbox.all (fun row => row.published) &&
    decide ((state.partitions ()).position = (state.partitions ()).log.length) &&
    (state.services name).queue.isEmpty &&
    decide (((state.services name).hub.dispatcher : Dispatcher Unit) = .idle) &&
    decide ((state.services name).hub.conns () = ⟨.reading, .waiting, []⟩)

theorem pair_ran : (runActions DeliverySystem.step (Served (pairMember false))
    (DeliverySystem.initial pairSetup) pairRun).map (fun state =>
      (shown state (pairMember false), shown state (pairMember true), isRested state false)) =
        some ([1, 1, 2], [1, 1, 2], true) := by
  decide +kernel

/-- Both members are shown the first message twice and then the second, and nothing
waits any more. -/
theorem pair_rested : ∃ state : DeliverySystem.State pairSetup,
    Reachable DeliverySystem.step (Served (pairMember false)) (DeliverySystem.initial pairSetup)
      state ∧
      shown state (pairMember false) = [1, 1, 2] ∧ shown state (pairMember true) = [1, 1, 2] ∧
      AtRest state (pairMember false) := by
  rcases Option.map_eq_some_iff.mp pair_ran with ⟨state, reached, facts⟩
  simp only [Prod.mk.injEq, isRested, Bool.and_eq_true, decide_eq_true_eq, List.all_eq_true,
    List.isEmpty_iff] at facts
  rcases facts with ⟨left, right, ⟨⟨⟨published, marked⟩, queue⟩, idle⟩, connection⟩
  have pump : ((state.services false).hub.conns ()).pump = .waiting := by rw [connection]
  have drained : ((state.services false).hub.conns ()).send = [] := by rw [connection]
  exact ⟨state, reachable_run_actions reachable_start reached, left, right, published, marked,
    queue, idle, pump, drained⟩

end Samples

section Results

variable [DecidableEq Partition] [∀ name, DecidableEq (Conn name)] [Fintype Caller]
  [DecidableEq Caller] [DecidableEq Relay] [DecidableEq Instance]

/-- Any two clients that are shown a message of one room under one number are
shown the same message. -/
theorem clients_agree (setup : Setup Caller Relay Partition Conn)
    (keeps : KeepsJson setup.environment.columns) (state : DeliverySystem.State setup)
    (reached : Reachable DeliverySystem.step anyStep (DeliverySystem.initial setup) state)
    (left right : Instance) (leftConn : Conn left) (rightConn : Conn right)
    (leftFrame rightFrame : Bytes) (leftEvent rightEvent : Event)
    (leftWritten : leftFrame ∈ (state.services left).written leftConn)
    (rightWritten : rightFrame ∈ (state.services right).written rightConn)
    (leftShown : decodeServerFrame leftFrame = .ok (.event leftEvent))
    (rightShown : decodeServerFrame rightFrame = .ok (.event rightEvent))
    (sameRoom : leftEvent.roomID = rightEvent.roomID)
    (sameSeq : leftEvent.roomSeq = rightEvent.roomSeq) :
    leftEvent.messageID = rightEvent.messageID ∧
      leftEvent.clientMessageID = rightEvent.clientMessageID ∧
      leftEvent.createdAt.instant = rightEvent.createdAt.instant ∧
      SameValue leftEvent.payload rightEvent.payload := by
  have sound := reachable_system_sound keeps reached
  rcases shown_stands keeps sound leftWritten leftShown with ⟨leftRow, leftStands⟩
  rcases shown_stands keeps sound rightWritten rightShown with ⟨rightRow, rightStands⟩
  rcases stands_number leftStands with ⟨leftRoom, leftSeq⟩
  rcases stands_number rightStands with ⟨rightRoom, rightSeq⟩
  have same : leftRow = rightRow := by
    apply outbox_row_unique sound.relay.store.database leftStands.listed rightStands.listed
    · rw [← leftRoom, ← rightRoom, sameRoom]
    · rw [← leftSeq, ← rightSeq, sameSeq]
  subst same
  rcases stands_decoded keeps leftStands with ⟨stored, decoded, leftSame⟩
  rcases stands_decoded keeps rightStands with ⟨other, otherDecoded, rightSame⟩
  cases decoded.symm.trans otherDecoded
  exact ⟨leftSame.messageID.trans rightSame.messageID.symm,
    leftSame.clientMessageID.trans rightSame.clientMessageID.symm,
    leftSame.createdAt.trans rightSame.createdAt.symm,
    same_value_trans leftSame.payload (same_value_symm rightSame.payload)⟩

/-- The connections of two instances have decoded the second message. -/
theorem two_instances_agree : ∃ state : DeliverySystem.State pairSetup,
    ∃ leftFrame ∈ (state.services false).written (),
      ∃ rightFrame ∈ (state.services true).written (), ∃ leftEvent rightEvent,
        decodeServerFrame leftFrame = .ok (.event leftEvent) ∧
        decodeServerFrame rightFrame = .ok (.event rightEvent) ∧
        leftEvent.roomSeq = 2 ∧ rightEvent.roomSeq = 2 ∧
        leftEvent.messageID = rightEvent.messageID ∧
        SameValue leftEvent.payload rightEvent.payload := by
  rcases pair_rested with ⟨state, reached, left, right, _⟩
  have leftSeen : 2 ∈ shown state (pairMember false) := by simp [left]
  have rightSeen : 2 ∈ shown state (pairMember true) := by simp [right]
  rcases shown_frame leftSeen with
    ⟨_, leftFrame, leftWritten, leftEvent, leftDecoded, leftRoom, leftSeq⟩
  rcases shown_frame rightSeen with
    ⟨_, rightFrame, rightWritten, rightEvent, rightDecoded, rightRoom, rightSeq⟩
  have agrees := clients_agree pairSetup json_columns_keep state
    (reachable_weaken (fun _ _ _ => trivial) reached) false true () () leftFrame rightFrame
    leftEvent rightEvent leftWritten rightWritten leftDecoded rightDecoded
    (leftRoom.trans rightRoom.symm) (leftSeq.trans rightSeq.symm)
  exact ⟨state, leftFrame, leftWritten, rightFrame, rightWritten, leftEvent, rightEvent,
    leftDecoded, rightDecoded, leftSeq, rightSeq, agrees.1, agrees.2.2.2⟩

omit [Fintype Caller] [DecidableEq Caller] [DecidableEq Instance] [DecidableEq Partition]
  [DecidableEq Relay] in
/-- Every message above the base has come to a member that is at rest. -/
theorem rest_shown {setup : Setup Caller Relay Partition Conn}
    {state : DeliverySystem.State setup} {member : Member Conn} (system : SystemSound state)
    (sound : MemberSound member state) (rest : AtRest state member) {seq : Int}
    (higher : (member.base : Int) < seq)
    (bound : seq ≤ MessageStoreModel.lastSeq state.relay.store.db member.room) :
    seq ∈ shown state member := by
  rcases outbox_row_of_seq system.relay.store.database (by omega) bound with
    ⟨row, listed, room, number⟩
  have taken := system.relay.published row listed (rest.published row listed)
  rcases system.logs.placed _ taken.2 with ⟨message, present, same⟩
  have key : (recordOf (entryOf row)).key = member.room := room
  rw [key] at present
  rcases List.getElem?_of_mem present with ⟨offset, placed⟩
  rcases (system.sessions (setup.partitionOf member.room)).progress with ⟨count, progress⟩
  have inside := (List.getElem?_eq_some_iff.mp placed).1
  have handled : offset ∈
      firstSuccesses (state.partitions (setup.partitionOf member.room)).events := by
    rw [progress.firsts, List.mem_range]
    have reached := progress.position
    rw [rest.marked] at reached
    omega
  have numbered : recordSeq message.record = some seq := by
    rw [same, record_seq_of_valid taken.1]
    exact congrArg some number
  have came := sound.covered _ offset handled message placed (by rw [same, key]) seq numbered higher
  rw [shown, written_of_drained (system.services member.name) rest.queue rest.idle rest.pump
    rest.drained]
  exact came

end Results

end ChatScale.MemberDelivery
