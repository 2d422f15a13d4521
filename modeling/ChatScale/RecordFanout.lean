import ChatScale.DeliveryPipeline
import ChatScale.PresenceModel

/-!
# The fan-out of a record

The delivery service looks up the instances of a record's room in presence and
publishes the record once to the channel of each. An instance subscribes to the
channel of its own name; its consumer takes one message after the other and
dispatches it to the connections of the room, while the other goroutines of
these connections go on. The hub stays as it is meanwhile.
-/

namespace ChatScale.RecordFanout

open ChatScale.ByteText ChatScale.MessageContract ChatScale.HubRooms ChatScale.TransitionSystem
open ChatScale.RedisKeyspace ChatScale.PresenceModel ChatScale.DeliveryPipeline
open ChatScale.LiveHubModel (Profile Dispatcher ConnectionMove sendCapacity dispatchFrame
  dispatchStep sendStep setConnection)

set_option autoImplicit false

section Channels

/-- What a subscription to the channel of an instance gets. -/
def received (channelPrefix instanceName : Bytes) (published : List (Bytes × Bytes)) :
    List Bytes :=
  (published.filter fun message => message.1 == channelName channelPrefix instanceName).map
    Prod.snd

theorem channel_name_injective {channelPrefix left right : Bytes}
    (same : channelName channelPrefix left = channelName channelPrefix right) : left = right :=
  List.append_cancel_left same

theorem received_cons (channelPrefix instanceName first : Bytes) (message : Message)
    (rest : List Bytes) :
    received channelPrefix instanceName (publishMessage channelPrefix message (first :: rest)) =
      if instanceName = first then message.marshal ::
        received channelPrefix instanceName (publishMessage channelPrefix message rest)
      else received channelPrefix instanceName (publishMessage channelPrefix message rest) := by
  simp only [received, publishMessage, List.map_cons, List.filter_cons, beq_iff_eq]
  by_cases same : instanceName = first
  · rw [if_pos same, same, if_pos rfl, List.map_cons]
  · rw [if_neg same, if_neg fun equal => same (channel_name_injective equal).symm]

/-- An instance gets the message once if it is listed, and not at all if not. -/
theorem received_published (channelPrefix instanceName : Bytes) (message : Message)
    {instanceNames : List Bytes} (once : instanceNames.Nodup) :
    received channelPrefix instanceName (publishMessage channelPrefix message instanceNames) =
      if instanceName ∈ instanceNames then [message.marshal] else [] := by
  induction instanceNames with
  | nil => rfl
  | cons first rest induction =>
      rw [List.nodup_cons] at once
      rw [received_cons, induction once.2]
      by_cases same : instanceName = first
      · subst same
        rw [if_pos rfl, if_neg once.1, if_pos List.mem_cons_self]
      · simp only [List.mem_cons, same, false_or, if_false]

end Channels

section Feed

variable {Conn : Type} {profiles : Conn → Profile}

/-- An instance with the messages that wait for its consumer. `sent` lists what
`Dispatch` has put on the `Send` channels of connections. -/
structure Feed (profiles : Conn → Profile) where
  queue : List Bytes
  service : LiveHubModel.State profiles
  sent : List (Conn × Bytes)

/-- `targets` is the order in which `Dispatch` meets the room's connections. -/
inductive FeedAction (Conn : Type) where
  | receive (targets : List Conn)
  | send
  | release
  | connection (conn : Conn) (move : ConnectionMove)

variable [DecidableEq Conn]

def receiveStep (feed : Feed profiles) (targets : List Conn) : Option (Feed profiles) :=
  match feed.queue, feed.service.dispatcher with
  | payload :: rest, .idle =>
      match consume payload with
      | none => some { feed with queue := rest }
      | some event => (dispatchStep feed.service event targets).map fun service =>
          { feed with queue := rest, service := service }
  | _, _ => none

def feedStep (feed : Feed profiles) : FeedAction Conn → Option (Feed profiles)
  | .receive targets => receiveStep feed targets
  | .send =>
      match feed.service.dispatcher with
      | .sending frame (conn :: _) => (sendStep feed.service).map fun service =>
          { feed with service := service, sent := feed.sent ++ [(conn, frame)] }
      | _ => none
  | .release => (LiveHubModel.step feed.service .release).map fun service =>
      { feed with service := service }
  | .connection conn move =>
      (LiveHubModel.step feed.service (.connection conn move)).map fun service =>
        { feed with service := service }

/-- The consumer has worked off all messages. -/
def Feed.isDone (feed : Feed profiles) : Prop :=
  feed.queue = [] ∧ feed.service.dispatcher = .idle

/-- What a dispatch of the event has to put on `Send` channels. -/
def dispatchTargets (hub : Hub fun conn => (profiles conn).clientID) (event : Event) :
    List (Conn × Bytes) :=
  match dispatchFrame event, hub.members event.roomID with
  | some frame, some conns => conns.map fun conn => (conn, frame)
  | _, _ => []

def payloadTargets (hub : Hub fun conn => (profiles conn).clientID) (payload : Bytes) :
    List (Conn × Bytes) :=
  match consume payload with
  | none => []
  | some event => dispatchTargets hub event

/-- What is left of the dispatch under way. -/
def inFlight : Dispatcher Conn → List (Conn × Bytes)
  | .idle => []
  | .sending frame rest => rest.map fun conn => (conn, frame)

/-- What has been sent and what is still to be sent. -/
def Feed.total (feed : Feed profiles) : List (Conn × Bytes) :=
  feed.sent ++ inFlight feed.service.dispatcher ++
    feed.queue.flatMap (payloadTargets feed.service.hub)

end Feed

section Runs

variable {Conn : Type} [DecidableEq Conn] {profiles : Conn → Profile}

theorem dispatch_targets_perm {state after : LiveHubModel.State profiles} {event : Event}
    {targets : List Conn} (stepped : dispatchStep state event targets = some after) :
    state.dispatcher = .idle ∧ after.hub = state.hub ∧
      (inFlight after.dispatcher).Perm (dispatchTargets state.hub event) := by
  unfold dispatchStep at stepped
  split at stepped
  · rename_i frame conns idle framed found
    split_ifs at stepped with ordered
    cases stepped
    refine ⟨idle, rfl, ?_⟩
    rw [dispatchTargets, framed, found]
    exact ordered.map _
  · rename_i idle notBoth
    cases stepped
    refine ⟨idle, rfl, ?_⟩
    rw [idle, dispatchTargets]
    split
    · rename_i framed found
      exact absurd found (notBoth _ _ framed)
    · exact .nil
  · cases stepped

/-- No step changes the hub, and what has been sent and is still to be sent
stays the same up to its order. -/
theorem feed_step_total {feed next : Feed profiles} {action : FeedAction Conn}
    (stepped : feedStep feed action = some next) :
    next.service.hub = feed.service.hub ∧ next.total.Perm feed.total := by
  cases action with
  | receive targets =>
      simp only [feedStep, receiveStep] at stepped
      split at stepped
      · rename_i payload rest waiting idle
        split at stepped
        · rename_i skipped
          cases stepped
          refine ⟨rfl, ?_⟩
          simp only [Feed.total, waiting, List.flatMap_cons, payloadTargets, skipped,
            List.nil_append]
          exact .refl _
        · rename_i event consumed
          obtain ⟨service, dispatched, rfl⟩ := Option.map_eq_some_iff.mp stepped
          obtain ⟨_, sameHub, targetsPerm⟩ := dispatch_targets_perm dispatched
          refine ⟨sameHub, ?_⟩
          simp only [Feed.total, waiting, List.flatMap_cons, payloadTargets, consumed, idle,
            inFlight, List.append_nil, sameHub, List.append_assoc]
          exact (targetsPerm.append_right _).append_left _
      · cases stepped
  | send =>
      simp only [feedStep] at stepped
      split at stepped
      · rename_i frame conn rest sending
        obtain ⟨service, sent, rfl⟩ := Option.map_eq_some_iff.mp stepped
        obtain ⟨_, _, _, sameStage, _, rfl⟩ := LiveHubModel.send_step_cases sent
        rw [sending] at sameStage
        cases sameStage
        refine ⟨rfl, ?_⟩
        simp only [Feed.total, sending, inFlight, List.map_cons, List.append_assoc,
          List.cons_append, setConnection]
        exact .refl _
      · cases stepped
  | release =>
      obtain ⟨service, released, rfl⟩ := Option.map_eq_some_iff.mp stepped
      simp only [LiveHubModel.step] at released
      split at released
      · rename_i sending
        cases released
        refine ⟨rfl, ?_⟩
        simp only [Feed.total, sending, inFlight, List.map_nil]
        exact .refl _
      · cases released
  | connection conn move =>
      obtain ⟨service, moved, rfl⟩ := Option.map_eq_some_iff.mp stepped
      obtain ⟨connection, _, rfl⟩ := Option.map_eq_some_iff.mp moved
      exact ⟨rfl, .refl _⟩

theorem reachable_total {start feed : Feed profiles}
    (reached : Reachable feedStep anyStep start feed) :
    feed.service.hub = start.service.hub ∧ feed.total.Perm start.total := by
  refine reachable_invariant
    (fun feed => feed.service.hub = start.service.hub ∧ feed.total.Perm start.total)
    ⟨rfl, .refl _⟩ ?_ reached
  intro before action after known _ stepped
  obtain ⟨sameHub, sameTotal⟩ := feed_step_total stepped
  exact ⟨sameHub.trans known.1, sameTotal.trans known.2⟩

/-- When the consumer is through, everything its queue asked for has been sent. -/
theorem sent_when_done {start final : Feed profiles} (fresh : start.sent = [])
    (idle : start.service.dispatcher = .idle) (reached : Reachable feedStep anyStep start final)
    (done : final.isDone) :
    final.sent.Perm (start.queue.flatMap (payloadTargets start.service.hub)) := by
  have total := (reachable_total reached).2
  simp only [Feed.total, done.1, done.2, inFlight, fresh, idle, List.flatMap_nil,
    List.append_nil, List.nil_append] at total
  exact total

/-- The loop of `Dispatch` comes to its end if the buffers have room. -/
theorem sending_ends {start feed : Feed profiles} {frame : Bytes} {rest : List Conn}
    (reached : Reachable feedStep anyStep start feed)
    (sending : feed.service.dispatcher = .sending frame rest) (once : rest.Nodup)
    (room : ∀ conn ∈ rest, (feed.service.conns conn).send.length < sendCapacity) :
    ∃ final, Reachable feedStep anyStep start final ∧ final.queue = feed.queue ∧
      final.service.dispatcher = .idle := by
  induction rest generalizing feed with
  | nil =>
      have released : feedStep feed .release =
          some { feed with service := { feed.service with dispatcher := .idle } } := by
        simp only [feedStep, LiveHubModel.step, sending, Option.map_some]
      exact ⟨_, reachable_step reached trivial released, rfl, rfl⟩
  | cons conn rest induction =>
      rw [List.nodup_cons] at once
      have space := room conn List.mem_cons_self
      let connection := feed.service.conns conn
      let service := { setConnection feed.service conn
        { connection with send := connection.send ++ [frame] } with
          dispatcher := .sending frame rest }
      have stepped : feedStep feed .send =
          some { feed with service := service, sent := feed.sent ++ [(conn, frame)] } := by
        simp only [feedStep, sending, sendStep, if_pos space, Option.map_some, service, connection]
      apply induction (reachable_step reached trivial stepped) rfl once.2
      intro other later
      have different : other ≠ conn := fun same => once.1 (same ▸ later)
      have kept : service.conns other = feed.service.conns other :=
        LiveHubModel.set_connection_other feed.service _ different
      rw [kept]
      exact room other (List.mem_cons_of_mem _ later)

/-- With room in every buffer the consumer can work off a message. -/
theorem message_worked_off {feed : Feed profiles} {payload : Bytes}
    (single : feed.queue = [payload]) (idle : feed.service.dispatcher = .idle)
    (room : ∀ conn, (feed.service.conns conn).send.length < sendCapacity) :
    ∃ final, Reachable feedStep anyStep feed final ∧ final.isDone := by
  cases consumed : consume payload with
  | none =>
      have stepped : feedStep feed (.receive []) = some { feed with queue := [] } := by
        simp only [feedStep, receiveStep, single, idle, consumed]
      exact ⟨_, reachable_step reachable_start trivial stepped, rfl, idle⟩
  | some event =>
      cases framed : dispatchFrame event with
      | none =>
          have stepped : feedStep feed (.receive []) = some { feed with queue := [] } := by
            simp only [feedStep, receiveStep, single, idle, consumed, dispatchStep, framed,
              Option.map_some]
          exact ⟨_, reachable_step reachable_start trivial stepped, rfl, idle⟩
      | some frame =>
          cases found : feed.service.hub.members event.roomID with
          | none =>
              have stepped : feedStep feed (.receive []) = some { feed with queue := [] } := by
                simp only [feedStep, receiveStep, single, idle, consumed, dispatchStep, framed,
                  found, Option.map_some]
              exact ⟨_, reachable_step reachable_start trivial stepped, rfl, idle⟩
          | some conns =>
              have stepped : feedStep feed (.receive conns) = some { feed with
                  queue := []
                  service := { feed.service with dispatcher := .sending frame conns } } := by
                simp only [feedStep, receiveStep, single, idle, consumed, dispatchStep, framed,
                  found, List.Perm.refl, if_true, Option.map_some]
              obtain ⟨final, reached, empty, ended⟩ :=
                sending_ends (reachable_step reachable_start trivial stepped) rfl
                  (members_nodup feed.service.hub found) fun conn _ => room conn
              exact ⟨final, reached, empty, ended⟩

end Runs

section Results

theorem mem_dispatch_targets {Conn : Type} {profiles : Conn → Profile}
    {hub : Hub fun conn => (profiles conn).clientID} {event : Event} {conn : Conn}
    {sent : Bytes} : (conn, sent) ∈ dispatchTargets hub event ↔
      hub.clientAt event.roomID (profiles conn).clientID = some conn ∧
        dispatchFrame event = some sent := by
  rw [dispatchTargets]
  cases framed : dispatchFrame event with
  | none =>
      constructor
      · intro member
        cases member
      · intro both
        cases both.2
  | some frame =>
      cases found : hub.members event.roomID with
      | none =>
          have absent : hub.clientAt event.roomID (profiles conn).clientID = none := by
            rw [Hub.clientAt, Option.map_eq_none_iff.mp found, Option.bind_none]
          rw [absent]
          constructor
          · intro member
            cases member
          · intro both
            cases both.1
      | some conns =>
          rw [← mem_members hub found conn]
          constructor
          · intro member
            rcases List.mem_map.mp member with ⟨other, listed, same⟩
            cases same
            exact ⟨listed, rfl⟩
          · rintro ⟨listed, same⟩
            cases same
            exact List.mem_map.mpr ⟨conn, listed, rfl⟩

theorem dispatch_targets_nodup {Conn : Type} {profiles : Conn → Profile}
    (hub : Hub fun conn => (profiles conn).clientID) (event : Event) :
    (dispatchTargets hub event).Nodup := by
  unfold dispatchTargets
  split
  · rename_i found
    apply (members_nodup hub found).map
    intro left right same
    cases same
    rfl
  · exact List.nodup_nil

/-- A record whose event is valid and in its own room is handled if presence
answers and the timestamp of the record has a text, and then goes to the
instances presence lists. -/
theorem handled_listed {message : Message} {event : Event} {presence : Presence}
    {instanceNames : List Bytes} (carried : unmarshalEvent message.value = some event)
    (valid : event.validate = .ok ()) (keyed : message.key = event.roomID)
    (handled : handle presence message = .ok instanceNames) :
    presence event.roomID = .ok (some instanceNames) ∧
      (instanceNames = [] ∨ message.timestamp.encodes = true) := by
  rw [handle_valid carried valid keyed] at handled
  unfold route at handled
  split at handled
  · cases handled
  · cases handled
  · rename_i answered
    obtain ⟨rfl, serialized⟩ := serialize_ok.mp handled
    exact ⟨answered, serialized⟩

theorem lookup_answered {lookup : Except Unit (List Bytes)} {instanceNames : List Bytes}
    (mapped : lookup.map some = .ok (some instanceNames)) : lookup = .ok instanceNames := by
  cases lookup with
  | error reason => cases mapped
  | ok listed =>
      cases mapped
      rfl

variable {Instance : Type} {Conn : Instance → Type} [∀ name, DecidableEq (Conn name)]

/-- A valid event has a frame exactly if its time has a text. -/
theorem valid_frame {event : Event} (valid : event.validate = .ok ()) :
    dispatchFrame event = event.marshal ∧ event.marshal.isSome = event.createdAt.encodes := by
  refine ⟨by rw [dispatchFrame, valid], ?_⟩
  cases encodes : event.createdAt.encodes with
  | false =>
      rw [marshal_none encodes]
      rfl
  | true =>
      obtain ⟨frame, marshalled⟩ :=
        marshal_of_valid (event_validate_ok.mp valid).2.2.2.2.2.2 encodes
      rw [marshalled]
      rfl

/-- The frame of the event is enqueued once for each connection of the room on a
listed instance, and nothing else is. An event whose time has no JSON text has
no frame. -/
theorem record_fanned_out (names : Instance → Bytes)
    (profiles : ∀ name, Conn name → Profile)
    (services : ∀ name, LiveHubModel.State (profiles name))
    (between : ∀ name, (services name).dispatcher = .idle)
    (now : Nat) (db : Keyspace) (iteration : List (Bytes × Bytes) → List (Bytes × Bytes))
    (reordered : ∀ fields, (iteration fields).Perm fields)
    (channelPrefix : Bytes) (message : Message) (event : Event)
    (carried : unmarshalEvent message.value = some event) (valid : event.validate = .ok ())
    (keyed : message.key = event.roomID) (instanceNames : List Bytes)
    (handled : handle (fun room => (isConnected now db iteration room).map some) message =
      .ok instanceNames) :
    event.marshal.isSome = event.createdAt.encodes ∧ ∀ name,
      let start : Feed (profiles name) := ⟨received channelPrefix (names name)
        (publishMessage channelPrefix message instanceNames), services name, []⟩
      (∀ final, Reachable feedStep anyStep start final → final.isDone →
        (∀ conn frame, event.marshal = some frame → Listed now db event.roomID (names name) →
          (services name).hub.clientAt event.roomID (profiles name conn).clientID = some conn →
            final.sent.count (conn, frame) = 1) ∧
        ∀ conn sent, (conn, sent) ∈ final.sent → event.marshal = some sent ∧
          Listed now db event.roomID (names name) ∧
          (services name).hub.clientAt event.roomID (profiles name conn).clientID = some conn) ∧
      ((∀ conn, ((services name).conns conn).send.length < sendCapacity) →
        ∃ final, Reachable feedStep anyStep start final ∧ final.isDone) := by
  obtain ⟨presence, serialized⟩ := handled_listed carried valid keyed handled
  have answered := lookup_answered presence
  obtain ⟨once, listed⟩ := is_connected_lists reordered answered
  obtain ⟨framed, marshals⟩ := valid_frame valid
  refine ⟨marshals, fun name => ?_⟩
  rw [received_published channelPrefix (names name) message once]
  by_cases inPresence : names name ∈ instanceNames
  · have encodes := serialized.resolve_left (List.ne_nil_of_mem inPresence)
    obtain ⟨headers, timestamp, read⟩ := unmarshal_message message encodes
    have consumed : consume message.marshal = some event :=
      consume_decoded read carried keyed.symm
    rw [if_pos inPresence]
    refine ⟨?_, fun room => message_worked_off rfl (between name) room⟩
    intro final reached done
    have sent : final.sent.Perm (dispatchTargets (services name).hub event) := by
      have queued := sent_when_done rfl (between name) reached done
      rw [List.flatMap_singleton, payloadTargets, consumed] at queued
      exact queued
    constructor
    · intro conn frame marshalled _ registered
      rw [sent.count_eq]
      exact List.count_eq_one_of_mem (dispatch_targets_nodup _ _)
        (mem_dispatch_targets.mpr ⟨registered, framed.trans marshalled⟩)
    · intro conn other member
      have target := mem_dispatch_targets.mp (sent.mem_iff.mp member)
      exact ⟨framed.symm.trans target.2, (listed _).mp inPresence, target.1⟩
  · rw [if_neg inPresence]
    refine ⟨?_, fun _ => ⟨_, reachable_start, rfl, between name⟩⟩
    intro final reached done
    have sent : final.sent = [] := (sent_when_done rfl (between name) reached done).eq_nil
    constructor
    · intro conn frame _ inHash
      exact absurd ((listed _).mpr inHash) inPresence
    · intro conn other member
      rw [sent] at member
      cases member

end Results

section Samples

def helloEvent : Event where
  version := 1
  messageID := ascii "m-1"
  clientMessageID := ascii "c-1"
  roomID := ascii "lobby"
  roomSeq := 1
  createdAt := CivilTime.sampleTime.toTime
  payload := ascii "1"

def helloRecord : Message :=
  ⟨ascii "lobby", helloEvent.marshal.getD [], none, ⟨⟨2024, 5, 1, 12, 0, 1, 0, 0⟩, by decide⟩⟩

/-- Two instances, each with one connection in the room. -/
def instanceName : Bool → Bytes
  | false => ascii "inst-a"
  | true => ascii "inst-b"

def ann : Unit → Profile := fun _ => ⟨ascii "ann", [ascii "lobby"]⟩

def annConnected : LiveHubModel.State ann :=
  { LiveHubModel.initial ann with hub := newHub.register [ascii "lobby"] () }

/-- Only one of them is in presence. -/
def annPresent : Keyspace :=
  (exec 0 (fun _ => none) (connectBlock (ascii "ann") (ascii "inst-a") [ascii "lobby"])).1

theorem hello_fanned_out :
    ∃ frame, helloEvent.marshal = some frame ∧ ∃ final : Feed ann,
      Reachable feedStep anyStep ⟨received (ascii "instance:") (ascii "inst-a")
        (publishMessage (ascii "instance:") helloRecord [ascii "inst-a"]), annConnected, []⟩
        final ∧
      final.isDone ∧ final.sent.count ((), frame) = 1 := by
  have carried : unmarshalEvent helloRecord.value = some helloEvent := by decide +kernel
  have valid : helloEvent.validate = .ok () := by decide +kernel
  have handled : handle (fun room => (isConnected 0 annPresent id room).map some) helloRecord =
      .ok [ascii "inst-a"] := by decide +kernel
  obtain ⟨marshals, each⟩ := record_fanned_out instanceName (fun _ => ann)
    (fun _ => annConnected) (fun _ => rfl) 0 annPresent id (fun _ => .refl _) (ascii "instance:")
    helloRecord helloEvent carried valid rfl [ascii "inst-a"] handled
  obtain ⟨frame, marshalled⟩ :=
    Option.isSome_iff_exists.mp (marshals.trans (by decide : helloEvent.createdAt.encodes = true))
  have room : ∀ conn, (annConnected.conns conn).send.length < sendCapacity := by decide
  obtain ⟨final, reached, done⟩ := (each false).2 room
  have listed : Listed 0 annPresent helloEvent.roomID (instanceName false) :=
    ⟨clientKey (ascii "ann") (ascii "inst-a"), ⟨ascii "inst-a", some 60000⟩, by decide +kernel, rfl⟩
  exact ⟨frame, marshalled, final, reached, done,
    ((each false).1 final reached done).1 () frame marshalled listed (by decide +kernel)⟩

/-- The event with a time a day ahead of UTC, which `Unmarshal` reads and
`Marshal` does not write. -/
def aheadEvent : Event := { helloEvent with createdAt := CivilTime.aheadTime }

def aheadRecord : Message :=
  { helloRecord with
    value :=
      ascii "\x7b\"version\":1,\"message_id\":\"m-1\",\"client_message_id\":\"c-1\"," ++
      ascii "\"room_id\":\"lobby\",\"room_seq\":1," ++
      ascii "\"created_at\":\"2024-05-01T12:00:00+24:00\",\"payload\":1\x7d" }

/-- The delivery service handles the record, the instance is listed and has a
connection of the room, and no frame is put anywhere. -/
theorem ahead_record_not_sent :
    unmarshalEvent aheadRecord.value = some aheadEvent ∧ aheadEvent.validate = .ok () ∧
      aheadRecord.key = aheadEvent.roomID ∧
      handle (fun room => (isConnected 0 annPresent id room).map some) aheadRecord =
        .ok [ascii "inst-a"] ∧
      Listed 0 annPresent aheadEvent.roomID (ascii "inst-a") ∧
      annConnected.hub.clientAt aheadEvent.roomID (ann ()).clientID = some () ∧
      let start : Feed ann := ⟨received (ascii "instance:") (ascii "inst-a")
        (publishMessage (ascii "instance:") aheadRecord [ascii "inst-a"]), annConnected, []⟩
      (∃ final, Reachable feedStep anyStep start final ∧ final.isDone) ∧
        ∀ final, Reachable feedStep anyStep start final → final.isDone → final.sent = [] := by
  have queued : received (ascii "instance:") (ascii "inst-a")
      (publishMessage (ascii "instance:") aheadRecord [ascii "inst-a"]) =
        [aheadRecord.marshal] := by decide +kernel
  have targets : payloadTargets annConnected.hub aheadRecord.marshal = [] := by decide +kernel
  have room : ∀ conn, (annConnected.conns conn).send.length < sendCapacity := by decide
  have listed : Listed 0 annPresent aheadEvent.roomID (ascii "inst-a") :=
    ⟨clientKey (ascii "ann") (ascii "inst-a"), ⟨ascii "inst-a", some 60000⟩, by decide +kernel, rfl⟩
  refine ⟨by decide +kernel, by decide +kernel, rfl, by decide +kernel, listed,
    by decide +kernel, message_worked_off queued rfl room, ?_⟩
  intro final reached done
  have sent := sent_when_done rfl rfl reached done
  rw [queued, List.flatMap_singleton, targets] at sent
  exact sent.eq_nil

end Samples

end ChatScale.RecordFanout
