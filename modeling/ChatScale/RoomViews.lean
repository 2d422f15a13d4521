import ChatScale.RoomCluster

/-!
# What the clients of a room see

Every client is written a part of one sequence, that of the `Broadcast` calls for
its room, in the order of the calls; in the single instance without a gap. Each
frame is a message of the room that has been committed, and where no batch is
rolled back no client gets a frame twice.
-/

namespace ChatScale.RoomViews

open ChatScale.ByteText ChatScale.CivilTime ChatScale.JsonText ChatScale.JsonFields
open ChatScale.ByteEncodings
open ChatScale.MessageContract (decodes_int decodes_string decodes_time)
open ChatScale.MessageStoreModel (isText)
open ChatScale.RoomHubRun ChatScale.RoomHubMembership ChatScale.RoomSockets
open ChatScale.RoomHubModel (Variant Envelope)
open ChatScale.RoomOutboxModel ChatScale.RoomOutboxClaims ChatScale.RoomRows
open ChatScale.RoomHistory (StoreWalk StoreAction storeStep storeStart)
open ChatScale.TransitionSystem ChatScale.RoomCluster

set_option autoImplicit false

section Segments

variable {Client : Type}

theorem payloads_broadcast (history : List (Message Client)) (envelope : Envelope) (room : Bytes) :
    roomPayloads room (handled (history ++ [.broadcast envelope])) =
      roomPayloads room (handled history) ++
        if envelope.roomID = room then [envelope.payload] else [] := by
  rw [handled_append, room_payloads_append]
  congr 1
  by_cases same : envelope.roomID = room
  · simp [handled, roomPayloads, same]
  · simp [handled, roomPayloads, same]

variable [DecidableEq Client] {roomOf : Client → Bytes} {client : Client}

/-- How the deliveries to a client lie in the payloads of its room. -/
structure Segment (roomOf : Client → Bytes) (client : Client) (history : List (Message Client))
    (before after : List Bytes) : Prop where
  whole : roomPayloads (roomOf client) (handled history) =
    before ++ deliveries roomOf history client ++ after
  here : present roomOf history client = true → after = []

theorem unregistered_absent {history : List (Message Client)}
    (new : Message.register client ∉ history) :
    present roomOf history client = false ∧ deliveries roomOf history client = [] := by
  induction history using List.reverseRecOn with
  | nil => exact ⟨rfl, rfl⟩
  | append_singleton history message induction =>
      have before := induction fun listed => new (List.mem_append_left _ listed)
      cases message with
      | register other =>
          have apart : other ≠ client := by
            rintro rfl
            exact new (List.mem_append_right _ List.mem_cons_self)
          rw [present_register, if_neg apart, deliveries_register]
          exact before
      | unregister other =>
          rw [present_unregister, deliveries_unregister]
          refine ⟨?_, before.2⟩
          split_ifs
          · rfl
          · exact before.1
      | broadcast envelope =>
          rw [present_broadcast, deliveries_broadcast, before.1]
          exact ⟨rfl, (if_neg fun both => Bool.false_ne_true both.1).trans before.2⟩

/-- A client that registers once gets the payloads of its room without a gap. -/
theorem segment_of_once {history : List (Message Client)}
    (once : history.count (.register client) ≤ 1) :
    ∃ before after, Segment roomOf client history before after := by
  induction history using List.reverseRecOn with
  | nil => exact ⟨[], [], rfl, fun _ => rfl⟩
  | append_singleton history message induction =>
      rw [List.count_append] at once
      rcases induction (by omega) with ⟨before, after, segment⟩
      cases message with
      | register other =>
          have same : roomPayloads (roomOf client) (handled (history ++ [.register other])) =
              roomPayloads (roomOf client) (handled history) := by
            rw [handled_append]
            exact congrArg _ (List.append_nil _)
          by_cases own : other = client
          · -- Nothing was delivered before, so what the room has had is all before.
            have new : Message.register client ∉ history := by
              rw [own] at once
              intro listed
              have some := List.count_pos_iff.mpr listed
              simp at once
              omega
            refine ⟨roomPayloads (roomOf client) (handled history), [], ?_, fun _ => rfl⟩
            rw [same, deliveries_register, (unregistered_absent new).2, List.append_nil,
              List.append_nil]
          · refine ⟨before, after, ?_, ?_⟩
            · rw [same, deliveries_register]
              exact segment.whole
            · rw [present_register, if_neg own]
              exact segment.here
      | unregister other =>
          refine ⟨before, after, ?_, ?_⟩
          · rw [handled_append, deliveries_unregister, ← segment.whole]
            exact congrArg _ (List.append_nil _)
          · rw [present_unregister]
            split_ifs
            · intro absent
              cases absent
            · exact segment.here
      | broadcast envelope =>
          by_cases here : present roomOf history client = true
          · refine ⟨before, [], ?_, fun _ => rfl⟩
            rw [payloads_broadcast, segment.whole, segment.here here, deliveries_broadcast]
            by_cases room : envelope.roomID = roomOf client
            · rw [if_pos room, if_pos ⟨here, room⟩]
              simp
            · rw [if_neg room, if_neg fun both => room both.2]
              simp
          · refine ⟨before, after ++ if envelope.roomID = roomOf client then [envelope.payload]
              else [], ?_, ?_⟩
            · have none : ¬(present roomOf history client = true ∧
                  envelope.roomID = roomOf client) := fun both => here both.1
              rw [payloads_broadcast, segment.whole, deliveries_broadcast, if_neg none,
                List.append_assoc]
            · rw [present_broadcast]
              exact fun now => absurd now here

end Segments

section Frames

/-- A client reads a frame as the message it was made of. -/
theorem chat_round_trip {message : ChatMessage} (encodable : ChatEncodable message) :
    unmarshalChatMessage message.marshal = some message := by
  rcases struct_decides (chat_field_names message) chat_names_valid chat_names_distinct
    chat_names_apart with ⟨members, found, decides⟩
  rcases decides 0 "id" _ rfl with ⟨_, id⟩
  rcases decides 1 "room_id" _ rfl with ⟨_, roomID⟩
  rcases decides 2 "user_id" _ rfl with ⟨_, userID⟩
  rcases decides 3 "body" _ rfl with ⟨_, body⟩
  rcases decides 4 "created_at" _ rfl with ⟨_, createdAt⟩
  have idRead := parse_int_format message.id encodable.id.1 encodable.id.2
  have members : structMembers message.marshal = some members := found
  simp only [unmarshalChatMessage, members, decodes_int id idRead, decodes_string roomID,
    decodes_string userID, decodes_string body,
    decodes_time createdAt (parse_exact_format encodable.createdAt),
    value_of_valid encodable.roomID, value_of_valid encodable.userID,
    value_of_valid encodable.body, Option.bind_eq_bind, Option.bind_some]

/-- The message is that of the row, with the ids as its sender spelled them. -/
structure ShowsRow (columns : Columns) (row : MessageRow) (message : ChatMessage) : Prop where
  id : message.id = row.id
  body : message.body = row.body
  createdAt : message.createdAt = row.createdAt.toTime
  room : columns.uuid message.roomID = some row.roomID
  user : columns.uuid message.userID = some row.userID

theorem shows_row_encodable {columns : Columns} {row : MessageRow} {message : ChatMessage}
    (keeps : ColumnsKeep columns) (sound : RowSound row) (text : isText row.body = true)
    (shows : ShowsRow columns row message) : ChatEncodable message where
  id := by
    have serial := sound.serial
    rw [shows.id]
    simp only [minInt64, maxInt64, maxSerial] at *
    omega
  roomID := keeps.uuid _ _ shows.room
  userID := keeps.uuid _ _ shows.user
  body := by
    rw [isText, Bool.and_eq_true] at text
    rw [shows.body]
    exact text.1
  createdAt := by
    rw [shows.createdAt]
    exact row.createdAt.spelled

end Frames

section Texts

variable {Writer Relay : Type}

/-- The bodies of the rows are texts. -/
structure TextsSound (state : State Writer Relay) : Prop where
  rows : ∀ row ∈ state.db.messages, isText row.body = true
  held : ∀ writer row, insertedRow (state.writers writer) = some row → isText row.body = true

theorem inserted_text {columns : Columns} {db : Database} {request : Request} {body : Bytes}
    {clock : MessageStoreModel.ClockReading} {row : MessageRow} {message : ChatMessage}
    (inserted : insertMessage columns db request body clock = some (row, message)) :
    isText row.body = true := by
  simp only [insertMessage, Option.bind_eq_bind, Option.bind_eq_some_iff,
    Option.ite_none_right_eq_some] at inserted
  rcases inserted with ⟨_, _, _, _, ⟨text, _⟩, same⟩
  cases same
  exact text

theorem moves_text {columns : Columns} {request : Request} {db after : Database}
    {stage next : WriterStage} {move : WriterMove}
    (before : ∀ row, insertedRow stage = some row → isText row.body = true)
    (moves : WriterMoves columns request db stage move after next) {row : MessageRow}
    (held : insertedRow next = some row) : isText row.body = true := by
  cases moves with
  | opened valid => cases held
  | begun body => cases held
  | inserted drawn =>
      cases held
      exact inserted_text drawn
  | enqueued drawn => exact before row held
  | committed row event => cases held
  | lost row event => cases held
  | failed stage move error => cases held

variable [DecidableEq Writer] [Fintype Relay] [DecidableEq Relay]

theorem step_texts_sound {variant : Variant} {columns : Columns} {requests : Writer → Request}
    {state next : State Writer Relay} {action : RoomOutboxModel.Action Writer Relay}
    (sound : TextsSound state)
    (stepped : RoomOutboxModel.step variant columns requests state action = some next) :
    TextsSound next := by
  cases action with
  | relay relay move =>
      rcases Option.map_eq_some_iff.mp stepped with ⟨effect, _, rfl⟩
      exact ⟨sound.rows, sound.held⟩
  | writer writer move =>
      rcases Option.map_eq_some_iff.mp stepped with ⟨⟨after, stage⟩, moved, rfl⟩
      have moves := writer_step_moves moved
      constructor
      · rcases moves_tables moves with ⟨messages, _⟩ | ⟨row, event, at_, _, messages, _⟩
        · dsimp only
          rw [messages]
          exact sound.rows
        · have text : isText row.body = true := sound.held writer row (by rw [at_]; rfl)
          dsimp only
          rw [messages]
          intro other listed
          rcases List.mem_append.mp listed with earlier | last
          · exact sound.rows other earlier
          · rw [List.mem_singleton.mp last]
            exact text
      · intro other row held
        dsimp only at held
        by_cases same : other = writer
        · rw [same, Function.update_self] at held
          exact moves_text (sound.held writer) moves held
        · rw [Function.update_of_ne same] at held
          exact sound.held other row held

end Texts

section Handovers

variable {Writer Place Client : Type} [DecidableEq Writer] [DecidableEq Place] [Fintype Place]
  [DecidableEq Client] {setup : Setup Writer Client} {cluster : Cluster Writer Place Client}

omit [DecidableEq Client] in
theorem stored_texts_sound {store : StoreWalk Writer Place}
    (stored : Reachable (setupStore setup) anyStep storeStart store) : TextsSound store.store := by
  apply reachable_invariant (fun store : StoreWalk Writer Place => TextsSound store.store) _ _
    stored
  · exact ⟨by simp [storeStart, RoomOutboxModel.started, emptyDatabase], by
      intro writer row held
      cases held⟩
  · intro before action after sound _ stepped
    cases action with
    | request =>
        rcases Option.map_eq_some_iff.mp stepped with ⟨walk, _, rfl⟩
        exact sound
    | store action =>
        rcases Option.map_eq_some_iff.mp stepped with ⟨state, moved, rfl⟩
        exact step_texts_sound sound moved

/-- What a relay has handed over is a committed message. -/
theorem handover_shows (keeps : ColumnsKeep setup.columns) (sound : ClusterSound setup cluster)
    {handover : Handover} (listed : handover ∈ cluster.store.store.handovers) :
    ∃ row ∈ cluster.store.store.db.outbox, outboxEvent row = some handover.event ∧
      ∃ message ∈ cluster.store.store.db.messages, Carries setup.columns message row ∧
        message.roomID = handover.event.roomID ∧
        ShowsRow setup.columns message handover.event.message ∧
        unmarshalChatMessage handover.event.message.marshal = some handover.event.message := by
  have rows := (RoomHistory.store_walk_reachable keeps sound.stored).1
  rcases sound.claims.known handover listed with ⟨row, present, read⟩
  rcases paired_left rows.paired present with ⟨message, stored, carries⟩
  rcases carries.decodes with ⟨event, again, id, body, createdAt, room, user⟩
  cases read.symm.trans again
  have shows : ShowsRow setup.columns message handover.event.message :=
    ⟨id, body, createdAt, room, user⟩
  refine ⟨row, present, read, message, stored, carries, ?_, shows, ?_⟩
  · rw [← carries.room, outbox_event_room read]
  · apply chat_round_trip
    exact shows_row_encodable keeps (rows.rows message stored)
      ((stored_texts_sound sound.stored).rows message stored) shows

end Handovers

section Results

variable {Writer Place Client : Type} [DecidableEq Writer] [DecidableEq Place] [Fintype Place]
  [DecidableEq Client] {setup : Setup Writer Client} {cluster : Cluster Writer Place Client}

/-- The frames of the `Broadcast` calls for a room. -/
def roomFrames (cluster : Cluster Writer Place Client) (room : Bytes) : List Bytes :=
  roomPayloads room (broadcasts cluster)

/-- A client is written what it was delivered, as far as its pump has come. -/
theorem written_delivered (sound : ClusterSound setup cluster) (place : Place) (client : Client) :
    (cluster.servers place).written client <+:
      deliveries setup.roomOf (cluster.servers place).history client := by
  have server := sound.servers place
  have delivered := server.hub.delivered client
  rw [hubOf] at delivered
  rw [delivered]
  exact (server.sockets client).behind.trans (List.prefix_append _ _)

theorem written_segment (sound : ClusterSound setup cluster) (place : Place) (client : Client) :
    (cluster.servers place).written client <:+: roomPayloads (setup.roomOf client)
      (handled (cluster.servers place).history) := by
  rcases segment_of_once ((sound.servers place).once client) with ⟨before, after, segment⟩
  rw [segment.whole]
  exact (written_delivered sound place client).isInfix.trans (List.infix_append _ _ _)

theorem written_sublist (sound : ClusterSound setup cluster) (place : Place) (client : Client) :
    ((cluster.servers place).written client).Sublist
      (roomFrames cluster (setup.roomOf client)) := by
  refine (written_segment sound place client).sublist.trans ?_
  apply room_payloads_sublist
  refine List.Sublist.trans ?_ (sound.ordered place)
  rw [passed, List.append_assoc]
  exact List.sublist_append_left _ _

omit [DecidableEq Writer] [DecidableEq Place] [Fintype Place] in
/-- A frame of a room comes from a handover of a message of the room. -/
theorem mem_room_frames {room frame : Bytes} (listed : frame ∈ roomFrames cluster room) :
    ∃ handover ∈ cluster.store.store.handovers, handover.event.roomID = room ∧
      frame = handover.event.message.marshal := by
  rcases List.mem_map.mp listed with ⟨envelope, inside, rfl⟩
  rcases List.mem_filter.mp inside with ⟨broadcast, same⟩
  rcases List.mem_map.mp broadcast with ⟨handover, handed, rfl⟩
  exact ⟨handover, handed, beq_iff_eq.mp same, rfl⟩

/-- No batch is rolled back. -/
def steady (cluster : Cluster Writer Place Client) : Action Writer Place Client → Prop
  | .store (.store action) => RoomOutboxHandover.withoutRollback cluster.store.store action
  | _ => True

instance (cluster : Cluster Writer Place Client) (action : Action Writer Place Client) :
    Decidable (steady cluster action) := by
  unfold steady
  split
  · infer_instance
  · infer_instance

omit [DecidableEq Client] in
theorem store_handed_once {store next : StoreWalk Writer Place}
    {action : StoreAction Writer Place} (claims : ClaimsSound store.store)
    (once : RoomOutboxHandover.HandedOnce store.store)
    (kept : ∀ inner, action = .store inner →
      RoomOutboxHandover.withoutRollback store.store inner)
    (stepped : setupStore setup store action = some next) :
    RoomOutboxHandover.HandedOnce next.store := by
  cases action with
  | request =>
      rcases Option.map_eq_some_iff.mp stepped with ⟨walk, _, rfl⟩
      exact once
  | store action =>
      rcases Option.map_eq_some_iff.mp stepped with ⟨state, moved, rfl⟩
      exact RoomOutboxHandover.step_handed_once claims once (kept action rfl) moved

theorem step_handed_once {after : Cluster Writer Place Client}
    {action : Action Writer Place Client} (sound : ClusterSound setup cluster)
    (once : RoomOutboxHandover.HandedOnce cluster.store.store) (kept : steady cluster action)
    (stepped : step setup cluster action = some after) :
    RoomOutboxHandover.HandedOnce after.store.store := by
  cases step_cases stepped with
  | store action store quiet moved =>
      apply store_handed_once sound.claims once _ moved
      rintro inner rfl
      exact kept
  | server place action server own moved => exact once
  | broadcast place targets event store server single dispatched met =>
      apply store_handed_once sound.claims once _ (dispatch_cases dispatched).1
      rintro inner ⟨⟩
      rfl
  | publish place published reached event store naive dispatched =>
      apply store_handed_once sound.claims once _ (dispatch_cases dispatched).1
      rintro inner ⟨⟩
      rfl
  | consume place message rest server naive waiting moved => exact once
  | lose place index => exact once

theorem steady_handed_once (reached : Reachable (step setup) steady start cluster) :
    RoomOutboxHandover.HandedOnce cluster.store.store := by
  refine reachable_induction (fun cluster : Cluster Writer Place Client =>
    RoomOutboxHandover.HandedOnce cluster.store.store)
    RoomOutboxHandover.started_handed_once ?_ reached
  intro before action after earlier once kept stepped
  exact step_handed_once (reachable_cluster_sound earlier) once kept stepped

/-- Two handovers with the same frame are of the same row. -/
theorem same_frame_row (keeps : ColumnsKeep setup.columns) (sound : ClusterSound setup cluster)
    {left right : Handover} (leftListed : left ∈ cluster.store.store.handovers)
    (rightListed : right ∈ cluster.store.store.handovers)
    (same : left.event.message.marshal = right.event.message.marshal) : left.id = right.id := by
  have rows := (RoomHistory.store_walk_reachable keeps sound.stored).1
  rcases handover_shows keeps sound leftListed with
    ⟨leftRow, leftHere, leftRead, leftMessage, leftStored, leftCarries, _, leftShows, leftDecodes⟩
  rcases handover_shows keeps sound rightListed with
    ⟨rightRow, rightHere, rightRead, rightMessage, rightStored, rightCarries, _, rightShows,
      rightDecodes⟩
  rw [same, rightDecodes] at leftDecodes
  have messages : leftMessage = rightMessage := by
    apply List.inj_on_of_nodup_map rows.sequence.distinct leftStored rightStored
    apply Int.ofNat.inj
    have shown := congrArg ChatMessage.id (Option.some.inj leftDecodes)
    exact (leftShows.id.symm.trans shown.symm).trans rightShows.id
  rw [messages] at leftCarries
  have unique := paired_right rows.paired rows.sequence.distinct (fun _ _ _ => carries_id)
    rightStored
  rw [unique.unique ⟨leftHere, leftCarries⟩ ⟨rightHere, rightCarries⟩] at leftRead
  exact congrArg OutboxEvent.id (Option.some.inj (leftRead.symm.trans rightRead))

theorem frames_nodup (keeps : ColumnsKeep setup.columns) (sound : ClusterSound setup cluster)
    (once : RoomOutboxHandover.HandedOnce cluster.store.store) (room : Bytes) :
    (roomFrames cluster room).Nodup := by
  have distinct : ((broadcasts cluster).map Envelope.payload).Nodup := by
    rw [broadcasts, List.map_map]
    apply List.Nodup.map_on _ (List.Nodup.of_map _ once.once)
    intro left leftListed right rightListed same
    exact List.inj_on_of_nodup_map once.once leftListed rightListed
      (same_frame_row keeps sound leftListed rightListed same)
  exact (List.filter_sublist.map Envelope.payload).nodup distinct

/-- In every run of the cluster, what a client has been written is in the order of the
`Broadcast` calls for its room, without a gap in the single instance; each frame is a
committed message of the room, and if no batch has been rolled back it comes once. -/
theorem clients_see_broadcasts (setup : Setup Writer Client) (keeps : ColumnsKeep setup.columns)
    (cluster : Cluster Writer Place Client) (reached : Reachable (step setup) anyStep start cluster)
    (place : Place) (client : Client) :
    ((cluster.servers place).written client).Sublist
        (roomFrames cluster (setup.roomOf client)) ∧
      (setup.variant = .singleInstance → (∀ left right : Place, left = right) →
        (cluster.servers place).written client <:+: roomFrames cluster (setup.roomOf client)) ∧
      (∀ frame ∈ (cluster.servers place).written client,
        ∃ row ∈ cluster.store.store.db.messages, row.roomID = setup.roomOf client ∧
          ∃ message, unmarshalChatMessage frame = some message ∧
            ShowsRow setup.columns row message) ∧
      (Reachable (step setup) steady start cluster →
        ((cluster.servers place).written client).Nodup) := by
  have sound := reachable_cluster_sound reached
  have sublist := written_sublist sound place client
  refine ⟨sublist, ?_, ?_, ?_⟩
  · intro single one
    have whole := written_segment sound place client
    rw [sound.alone single one place] at whole
    exact whole
  · intro frame listed
    rcases mem_room_frames (sublist.subset listed) with ⟨handover, handed, room, rfl⟩
    rcases handover_shows keeps sound handed with ⟨_, _, _, row, stored, _, same, shows, decodes⟩
    exact ⟨row, stored, same.trans room, _, decodes, shows⟩
  · intro kept
    exact sublist.nodup (frames_nodup keeps sound (steady_handed_once kept) _)

end Results

section Samples

open RoomOutboxHandover (lobby greeting sentAt incoming)

def lobbySetup (Writer : Type) (variant : Variant) : Setup Writer Unit where
  variant := variant
  columns := keptColumns
  requests := fun _ => greeting
  roomOf := fun _ => lobby
  room := lobby
  limit := 1

def greetingFrame (id : Int) : Bytes :=
  ChatMessage.marshal ⟨id, lobby, greeting.incoming.userID, ascii "hi", sentAt.time.toTime⟩

variable {Writer Place : Type}

def post (writer : Writer) : List (Action Writer Place Unit) :=
  (incoming writer).map fun action => .store (.store action)

def connect (place : Place) : List (Action Writer Place Unit) :=
  [.client () .connect, .register (), .client () .startWrite, .client () .startRead].map
    (.server place)

/-- A relay gets a batch of one row up to its dispatch. -/
def claim (place : Place) : List (Action Writer Place Unit) :=
  [.poll, .select, .lock, .materialise].map fun move => .store (.store (.relay place move))

def finish (place : Place) : List (Action Writer Place Unit) :=
  [.mark, .commit].map fun move => .store (.store (.relay place move))

def publishNext (place : Place) (reached : Place → Bool) : List (Action Writer Place Unit) :=
  claim place ++ [.publish place true reached] ++ finish place

def broadcastNext (place : Place) (targets : List Unit) : List (Action Writer Place Unit) :=
  claim place ++ [.broadcast place targets] ++ finish place

def deliver (place : Place) : List (Action Writer Place Unit) :=
  [.send, .next, .client () .take, .client () .write].map (.server place)

def receive (place : Place) (frame : Bytes) : List (Action Writer Place Unit) :=
  [.consume place, .server place (.handle ⟨lobby, frame⟩ [()])] ++ deliver place

/-- Two servers with a client each, and two messages, of which one server loses the
first. -/
def twoServers : List (Action Bool Bool Unit) :=
  connect false ++ connect true ++ post false ++ publishNext false (fun _ => true) ++ post true ++
    publishNext true (fun _ => true) ++ [.lose false 0] ++ receive true (greetingFrame 1) ++
    receive true (greetingFrame 2) ++ receive false (greetingFrame 2)

/-- One server, with a client that comes after the first of three messages. -/
def oneServer : List (Action Nat Unit Unit) :=
  post 0 ++ broadcastNext () [] ++ [.server () .next] ++ connect () ++ post 1 ++
    broadcastNext () [()] ++ deliver () ++ post 2 ++ broadcastNext () [()] ++ deliver ()

theorem greetings_seen :
    (∃ cluster : Cluster Bool Bool Unit,
      Reachable (step (lobbySetup Bool .naiveScale)) anyStep start cluster ∧
      ((cluster.servers true).written () = [greetingFrame 1, greetingFrame 2] ∧
        (cluster.servers false).written () = [greetingFrame 2]) ∧
      ∀ place, ((cluster.servers place).written ()).Sublist (roomFrames cluster lobby) ∧
        ((cluster.servers place).written ()).Nodup) ∧
    ∃ cluster : Cluster Nat Unit Unit,
      Reachable (step (lobbySetup Nat .singleInstance)) anyStep start cluster ∧
      (cluster.servers ()).written () = [greetingFrame 2, greetingFrame 3] ∧
      (cluster.servers ()).written () <:+: roomFrames cluster lobby := by
  constructor
  · have ran : (runActions (step (lobbySetup Bool .naiveScale)) steady start twoServers).any
        (fun cluster => decide
          ((cluster.servers true).written () = [greetingFrame 1, greetingFrame 2] ∧
            (cluster.servers false).written () = [greetingFrame 2])) = true := by
      decide +kernel
    rcases (Option.any_eq_true _ _).mp ran with ⟨cluster, reached, checked⟩
    have kept := reachable_run_actions reachable_start reached
    have reachable : Reachable (step (lobbySetup Bool .naiveScale)) anyStep start cluster :=
      reachable_weaken (fun _ _ _ => trivial) kept
    refine ⟨cluster, reachable, of_decide_eq_true checked, ?_⟩
    intro place
    have seen := clients_see_broadcasts (lobbySetup Bool .naiveScale) kept_columns_keep cluster
      reachable place ()
    exact ⟨seen.1, seen.2.2.2 kept⟩
  · have ran : (runActions (step (lobbySetup Nat .singleInstance)) anyStep start oneServer).any
        (fun cluster => decide
          ((cluster.servers ()).written () = [greetingFrame 2, greetingFrame 3])) = true := by
      decide +kernel
    rcases (Option.any_eq_true _ _).mp ran with ⟨cluster, reached, checked⟩
    have reachable := reachable_run_actions reachable_start reached
    have seen := clients_see_broadcasts (lobbySetup Nat .singleInstance) kept_columns_keep
      cluster reachable () ()
    exact ⟨cluster, reachable, of_decide_eq_true checked, seen.2.1 rfl fun _ _ => rfl⟩

end Samples

end ChatScale.RoomViews
