import ChatScale.JsonbStrings
import ChatScale.RoomHubMembership
import ChatScale.RoomRows

/-!
# The spelling of a room id

The hub of the earlier stages keeps a client under the room string of its
request. A message comes back from the outbox under the room id that the `uuid`
column returns, in the one spelling the column has for it. The two agree for a
client that has sent that spelling; a client with another spelling of the same id
is in a room of its own, to which nothing is ever broadcast.
-/

namespace ChatScale.RoomSpelling

open ChatScale.ByteText ChatScale.ByteEncodings ChatScale.MessageId ChatScale.TransitionSystem
open ChatScale.RoomHubModel (Envelope Variant roomChannel roomOfChannel sendBuffer)
open ChatScale.RoomHubRun ChatScale.RoomHubMembership
open ChatScale.RoomOutboxModel (Columns OutboxEvent OutboxRow Request outboxEvent)
open ChatScale.RoomRows (ColumnsKeep)

set_option autoImplicit false

section Dispatch

variable {Client : Type} [DecidableEq Client]

/-- What reaches the `Run` of a server when a relay calls `Broadcast` with an
event. In naive-scale it goes through the channel of the room, to the servers that
have subscribed to it. -/
def received (variant : Variant) (hub : HubState Client) (event : OutboxEvent) :
    Option Envelope :=
  match variant with
  | .singleInstance => some ⟨event.roomID, event.message.marshal⟩
  | .naiveScale =>
      if hub.subscriptions.contains (roomChannel event.roomID) then
        some ⟨roomOfChannel (roomChannel event.roomID), event.message.marshal⟩
      else none

/-- The message reaches the server, the loop over the room can be ended, and
whenever it has ended the message has been put on the client's channel. -/
def PutsOn (variant : Variant) (roomOf : Client → Bytes) (hub : HubState Client)
    (event : OutboxEvent) (client : Client) : Prop :=
  ∃ envelope, received variant hub event = some envelope ∧
    ∀ targets after, hubStep variant roomOf hub (.broadcast envelope targets) = some after →
      (∃ later, Reachable (hubStep variant roomOf) RegistersOnce after later ∧
        later.stage = .selecting) ∧
      ∀ later, Reachable (hubStep variant roomOf) RegistersOnce after later →
        later.stage = .selecting → hub.puts client ++ [envelope.payload] <+: later.puts client

end Dispatch

section Loop

variable {Client : Type} [DecidableEq Client] {variant : Variant} {roomOf : Client → Bytes}
  {state after : HubState Client}

theorem unregister_history (client : Client) :
    (unregisterCase variant roomOf state client).history =
      state.history ++ [.unregister client] := by
  unfold unregisterCase
  dsimp only
  split_ifs <;> rfl

theorem send_history {payload : Bytes} {client : Client} {rest : List Client}
    (sent : sendCase state payload client rest = some after) : after.history = state.history := by
  unfold sendCase at sent
  dsimp only at sent
  split_ifs at sent
  · cases sent
    rfl
  · cases sent
    rfl

theorem receive_history {client : Client} (taken : receiveCase state client = some after) :
    after.history = state.history := by
  unfold receiveCase at taken
  split at taken
  · cases taken
    rfl
  · cases taken

/-- `Run` forgets no message it has taken. -/
theorem step_history {action : HubAction Client}
    (stepped : hubStep variant roomOf state action = some after) :
    state.history <+: after.history := by
  unfold hubStep at stepped
  split at stepped
  · cases stepped
    exact List.prefix_append _ _
  · cases stepped
    rw [unregister_history]
    exact List.prefix_append _ _
  · split_ifs at stepped
    cases stepped
    exact List.prefix_append _ _
  · rw [send_history stepped]
  · cases stepped
    exact List.prefix_rfl
  · rw [receive_history stepped]
  · cases stepped

theorem reachable_history {allowed : HubState Client → HubAction Client → Prop}
    (reached : Reachable (hubStep variant roomOf) allowed state after) :
    state.history <+: after.history :=
  reachable_invariant (fun later : HubState Client => state.history <+: later.history)
    List.prefix_rfl (fun _ _ _ known _ stepped => known.trans (step_history stepped)) reached

/-- The pump of a client can make room in its channel. -/
theorem channel_drains (client : Client) (sound : HubSound variant roomOf state) :
    ∃ later, Reachable (hubStep variant roomOf) RegistersOnce state later ∧
      HubSound variant roomOf later ∧ later.stage = state.stage ∧
      later.history = state.history ∧ (later.sends client).buffered.length < sendBuffer := by
  generalize size : (state.sends client).buffered.length = count
  induction count generalizing state with
  | zero => exact ⟨state, reachable_start, sound, rfl, rfl, by rw [size]; decide⟩
  | succ count induction =>
      cases channel : state.sends client with
      | mk buffered closed =>
          rw [channel] at size
          obtain ⟨payload, rest, rfl⟩ := List.exists_cons_of_length_eq_add_one size
          have stepped : hubStep variant roomOf state (.receive client) =
              some { state with sends := Function.update state.sends client ⟨rest, closed⟩ } := by
            rw [hub_step_receive, receiveCase, channel]
          have shorter :
              (Function.update state.sends client ⟨rest, closed⟩ client).buffered.length =
                count := by
            rw [Function.update_self]
            exact Nat.succ.inj size
          have free : RegistersOnce state (.receive client) := trivial
          obtain ⟨later, reached, laterSound, stage, history, room⟩ :=
            induction (hub_step_sound sound free stepped) shorter
          exact ⟨later, reachable_trans (reachable_step reachable_start free stepped) reached,
            laterSound, stage, history, room⟩

/-- The loop of a broadcast can be ended without another message being taken. -/
theorem loop_ends {payload : Bytes} {targets : List Client} (sound : HubSound variant roomOf state)
    (sending : state.stage = .sending payload targets) :
    ∃ later, Reachable (hubStep variant roomOf) RegistersOnce state later ∧
      HubSound variant roomOf later ∧ later.stage = .selecting ∧
      later.history = state.history := by
  induction targets generalizing state with
  | nil =>
      have free : RegistersOnce state .next := trivial
      have stepped : hubStep variant roomOf state .next =
          some { state with stage := .selecting } := by
        simp only [hubStep, sending]
      exact ⟨_, reachable_step reachable_start free stepped, hub_step_sound sound free stepped,
        rfl, rfl⟩
  | cons client rest induction =>
      obtain ⟨drained, reached, drainedSound, stage, history, room⟩ := channel_drains client sound
      have loop := drainedSound.loop
      rw [stage, sending] at loop
      have isOpen := sound_open drainedSound (loop.2 client List.mem_cons_self)
      have free : RegistersOnce drained .send := trivial
      have stepped : hubStep variant roomOf drained .send =
          some { drained with
            sends := Function.update drained.sends client { drained.sends client with
              buffered := (drained.sends client).buffered ++ [payload] }
            puts := Function.update drained.puts client (drained.puts client ++ [payload])
            stage := .sending payload rest } := by
        simp only [hubStep, stage, sending, sendCase, isOpen, room, Bool.false_eq_true, if_false,
          if_true]
      obtain ⟨later, onwards, laterSound, ended, same⟩ :=
        induction (hub_step_sound drainedSound free stepped) rfl
      refine ⟨later, reachable_trans reached ?_, laterSound, ended, same.trans history⟩
      exact reachable_trans (reachable_step reachable_start free stepped) onwards

end Loop

section Spellings

def openBrace : UInt8 := 123

def closeBrace : UInt8 := 125

/-- Reads bytes of an id, two digits each, and what follows them. A hyphen may
stand after every second byte that is not the last. -/
def readUuidBytes : Nat → Bytes → Option (Bytes × Bytes)
  | 0, rest => some ([], rest)
  | count + 1, high :: low :: rest => do
      let high ← fromHex high
      let low ← fromHex low
      let rest := if count % 2 = 0 ∧ 0 < count ∧ rest.head? = some hyphen then rest.tail else rest
      let (bytes, rest) ← readUuidBytes count rest
      some (UInt8.ofNat (16 * high + low) :: bytes, rest)
  | _, _ => none

/-- The `uuid` input of the database: digits of either case, hyphens or none, and
braces around the whole or none. -/
def readUuid (text : Bytes) : Option Uuid := do
  let braces := text.head? == some openBrace
  let (bytes, rest) ← readUuidBytes 16 (if braces then text.tail else text)
  if rest = if braces then [closeBrace] else [] then
    if length : bytes.length = 16 then some ⟨bytes, length⟩ else none
  else none

/-- Columns that take every spelling of an id and return the canonical one, and
that keep JSON values. -/
def databaseColumns : Columns :=
  ⟨fun text => (readUuid text).map Uuid.text, DeliveryPipeline.jsonColumns.jsonb⟩

example : (databaseColumns.uuid (ascii "\x7b0000000000004000-8000-00000000000A\x7d")) =
    some (ascii "00000000-0000-4000-8000-00000000000a") := by decide +kernel

theorem from_hex_ascii {byte : UInt8} {value : Nat} (read : fromHex byte = some value) :
    byte < 0x80 := by
  unfold fromHex at read
  split_ifs at read <;> grind

theorem read_uuid_ascii {count : Nat} {text bytes rest : Bytes}
    (read : readUuidBytes count text = some (bytes, rest)) :
    ∃ front, text = front ++ rest ∧ ∀ byte ∈ front, byte < 0x80 := by
  induction count generalizing text bytes rest with
  | zero =>
      cases read
      exact ⟨[], rfl, by simp⟩
  | succ count induction =>
      match text, read with
      | high :: low :: after, read =>
          simp only [readUuidBytes, Option.bind_eq_bind, Option.bind_eq_some_iff] at read
          obtain ⟨_, highRead, _, lowRead, ⟨others, left⟩, tail, same⟩ := read
          cases same
          obtain ⟨front, split, small⟩ := induction tail
          have digits := And.intro (from_hex_ascii highRead) (from_hex_ascii lowRead)
          split_ifs at split with hyphenated
          · obtain ⟨others, rfl⟩ := List.head?_eq_some_iff.mp hyphenated.2.2
            rw [List.tail_cons] at split
            have mark : hyphen < 0x80 := by decide
            refine ⟨high :: low :: hyphen :: front, by rw [split]; rfl, ?_⟩
            simpa [digits, mark] using small
          · refine ⟨high :: low :: front, by rw [split]; rfl, ?_⟩
            simpa [digits] using small

theorem valid_ascii {text : Bytes} (small : ∀ byte ∈ text, byte < 0x80) :
    isValidUtf8 text = true := by
  have whole := JsonbStrings.valid_ascii_append small []
  rw [List.append_nil] at whole
  rw [whole]
  rfl

theorem database_columns_keep : ColumnsKeep databaseColumns where
  uuid := by
    intro text id accepted
    obtain ⟨read, cast, _⟩ := Option.map_eq_some_iff.mp accepted
    simp only [readUuid, Option.bind_eq_bind, Option.bind_eq_some_iff,
      Option.ite_none_right_eq_some] at cast
    obtain ⟨⟨bytes, rest⟩, digits, ends, _⟩ := cast
    obtain ⟨front, split, small⟩ := read_uuid_ascii digits
    apply valid_ascii
    dsimp only at ends
    by_cases braces : (text.head? == some openBrace) = true
    · rw [if_pos braces] at split ends
      obtain ⟨others, rfl⟩ := List.head?_eq_some_iff.mp (eq_of_beq braces)
      have marks : openBrace < 0x80 ∧ closeBrace < 0x80 := by decide
      rw [List.tail_cons, ends] at split
      rw [split]
      intro byte listed
      simp only [List.mem_cons, List.mem_append, List.not_mem_nil, or_false] at listed
      rcases listed with rfl | inside | rfl
      · exact marks.1
      · exact small byte inside
      · exact marks.2
    · rw [if_neg braces] at split ends
      rw [split, ends, List.append_nil]
      exact small
  jsonb := DeliveryPipeline.json_columns_keep

end Spellings

section Results

variable {Client : Type} [DecidableEq Client] {variant : Variant} {roomOf : Client → Bytes}
  {hub : HubState Client} {event : OutboxEvent} {client : Client}

/-- The envelope has the room id of the outbox row. -/
theorem received_room {envelope : Envelope} (reaches : received variant hub event = some envelope) :
    envelope = ⟨event.roomID, event.message.marshal⟩ := by
  cases variant with
  | singleInstance =>
      cases reaches
      rfl
  | naiveScale =>
      simp only [received, Option.ite_none_right_eq_some, Option.some.injEq] at reaches
      rw [← reaches.2, room_of_room_channel]

/-- The server of a client in the room of the row is reached. -/
theorem received_of_present (sound : HubSound variant roomOf hub)
    (here : present roomOf hub.history client = true) (same : roomOf client = event.roomID) :
    received variant hub event = some ⟨event.roomID, event.message.marshal⟩ := by
  cases variant with
  | singleInstance => rfl
  | naiveScale =>
      have place := sound.places event.roomID client
      rw [if_pos ⟨same.symm, here⟩] at place
      have known := room_known (Option.isSome_iff_exists.mpr ⟨client, place⟩)
      have subscribed := ((sound.subscribed rfl).2 (roomChannel event.roomID)).mpr
        ⟨event.roomID, known, rfl⟩
      rw [received]
      simp only [List.contains_iff_mem, if_pos subscribed, room_of_room_channel]

theorem puts_of_selecting {state : HubState Client} (sound : HubSound variant roomOf state)
    (selecting : state.stage = .selecting) (client : Client) :
    state.puts client = deliveries roomOf state.history client := by
  have delivered := sound.delivered client
  rw [selecting, pending, List.append_nil] at delivered
  exact delivered.symm

theorem broadcast_taken {after : HubState Client} {envelope : Envelope} {targets : List Client}
    (selecting : hub.stage = .selecting)
    (stepped : hubStep variant roomOf hub (.broadcast envelope targets) = some after) :
    after.stage = .sending envelope.payload targets ∧
      after.history = hub.history ++ [.broadcast envelope] := by
  simp only [hubStep, selecting, Option.ite_none_right_eq_some, Option.some.injEq] at stepped
  obtain ⟨_, rfl⟩ := stepped
  exact ⟨rfl, rfl⟩

/-- A client that is in a room gets the message of an event exactly if the room
id of the event is spelled like its own. -/
theorem puts_on_iff (reached : Reachable (hubStep variant roomOf) RegistersOnce start hub)
    (selecting : hub.stage = .selecting) (here : present roomOf hub.history client = true) :
    PutsOn variant roomOf hub event client ↔ roomOf client = event.roomID := by
  have sound := reachable_hub_sound reached
  have put := puts_of_selecting sound selecting client
  have free (envelope : Envelope) (targets : List Client) :
      RegistersOnce hub (.broadcast envelope targets) := trivial
  constructor
  · rintro ⟨envelope, reaches, puts⟩
    by_contra differs
    -- the loop over the room of the row is run to its end, and nothing else
    have stepped : hubStep variant roomOf hub
        (.broadcast envelope ((hub.rooms.members envelope.roomID).getD [])) = some { hub with
          stage := .sending envelope.payload ((hub.rooms.members envelope.roomID).getD [])
          history := hub.history ++ [.broadcast envelope] } := by
      simp only [hubStep, selecting, List.Perm.refl, if_true]
    obtain ⟨later, onwards, laterSound, ended, history⟩ :=
      loop_ends (hub_step_sound sound (free _ _) stepped) rfl
    have grown := (puts _ _ stepped).2 later onwards ended
    have apart : ¬(present roomOf hub.history client = true ∧ envelope.roomID = roomOf client) := by
      rw [received_room reaches]
      exact fun both => differs both.2.symm
    rw [puts_of_selecting laterSound ended, history, deliveries_broadcast, if_neg apart, ← put]
      at grown
    have longer := grown.length_le
    rw [List.length_append, List.length_singleton] at longer
    omega
  · intro same
    refine ⟨_, received_of_present sound here same, ?_⟩
    intro targets after stepped
    obtain ⟨sending, history⟩ := broadcast_taken selecting stepped
    have afterSound := hub_step_sound sound (free _ _) stepped
    constructor
    · obtain ⟨later, onwards, _, ended, _⟩ := loop_ends afterSound sending
      exact ⟨later, onwards, ended⟩
    · intro later onwards ended
      have laterSound := reachable_hub_sound
        (reachable_trans (reachable_step reached (free _ _) stepped) onwards)
      have grown := deliveries_grow roomOf (reachable_history onwards) client
      rw [history, deliveries_broadcast, if_pos ⟨here, same.symm⟩, ← put] at grown
      rw [puts_of_selecting laterSound ended]
      exact grown

variable {Writer Relay Server : Type} [DecidableEq Writer] [Fintype Relay] [DecidableEq Relay]

/-- Whatever calls and relays have done to the tables and whatever messages the
hubs of the servers have taken: the room string of a stored message denotes the room
of its outbox row. When the message of the row is dispatched, it is put on the
channels of all registered clients whose room strings denote that room exactly if
they all spell it like the column. -/
theorem dispatched_to_room_iff (variant : Variant) (columns : Columns)
    (keeps : ColumnsKeep columns) (requests : Writer → Request) (roomOf : Client → Bytes)
    (store : RoomOutboxModel.State Writer Relay)
    (stored : Reachable (RoomOutboxModel.step variant columns requests) anyStep
      (RoomOutboxModel.started RoomOutboxModel.emptyDatabase) store)
    (hubs : Server → HubState Client)
    (ran : ∀ server, Reachable (hubStep variant roomOf) RegistersOnce start (hubs server))
    (selecting : ∀ server, (hubs server).stage = .selecting) (row : OutboxRow)
    (listed : row ∈ store.db.outbox) (event : OutboxEvent)
    (decoded : outboxEvent row = some event) :
    columns.uuid event.message.roomID = some event.roomID ∧
      ((∀ server client, present roomOf (hubs server).history client = true →
          columns.uuid (roomOf client) = some event.roomID →
          PutsOn variant roomOf (hubs server) event client) ↔
        ∀ server client, present roomOf (hubs server).history client = true →
          columns.uuid (roomOf client) = some event.roomID → roomOf client = event.roomID) := by
  constructor
  · have rows := RoomRows.reachable_rows_sound keeps stored
    obtain ⟨message, _, carries⟩ := RoomRows.paired_left rows.paired listed
    obtain ⟨again, read, _, _, _, room, _⟩ := carries.decodes
    cases decoded.symm.trans read
    rw [room, RoomOutboxClaims.outbox_event_room decoded, carries.room]
  · constructor
    · intro put server client here denotes
      exact (puts_on_iff (ran server) (selecting server) here).mp (put server client here denotes)
    · intro spelled server client here denotes
      exact (puts_on_iff (ran server) (selecting server) here).mpr
        (spelled server client here denotes)

def upperLobby : Bytes := ascii "00000000-0000-4000-8000-00000000000A"

def lowerLobby : Bytes := ascii "00000000-0000-4000-8000-00000000000a"

def greetingTo (roomID : Bytes) : Request :=
  ⟨roomID, RoomOutboxHandover.greeting.incoming⟩

/-- The event a relay hands over after one message to the room. -/
def handedOver (roomID : Bytes) : Option OutboxEvent :=
  (runActions (RoomOutboxModel.step .singleInstance databaseColumns
      fun _ : Unit => greetingTo roomID) anyStep
    (RoomOutboxModel.started RoomOutboxModel.emptyDatabase)
    (RoomOutboxHandover.incoming () ++ RoomOutboxHandover.smallBatch () true)).bind fun store =>
      store.handovers.head?.map RoomOutboxModel.Handover.event

/-- The hub in which the one client of a room has registered. -/
def joined (variant : Variant) (roomID : Bytes) : HubState Unit :=
  registerCase variant (fun _ => roomID) start ()

theorem joined_reachable (variant : Variant) (roomID : Bytes) :
    Reachable (hubStep variant fun _ : Unit => roomID) RegistersOnce start
      (joined variant roomID) := by
  have first : RegistersOnce (start : HubState Unit) (.register ()) := List.not_mem_nil
  exact reachable_step reachable_start first rfl

theorem lower_case_delivered :
    ∃ event, handedOver lowerLobby = some event ∧ event.roomID = lowerLobby ∧
      PutsOn .singleInstance (fun _ => lowerLobby) (joined .singleInstance lowerLobby) event
        () := by
  have ran : (handedOver lowerLobby).map OutboxEvent.roomID = some lowerLobby := by
    decide +kernel
  obtain ⟨event, handed, room⟩ := Option.map_eq_some_iff.mp ran
  obtain ⟨store, reached, first⟩ := Option.bind_eq_some_iff.mp handed
  obtain ⟨handover, head, rfl⟩ := Option.map_eq_some_iff.mp first
  have stored := reachable_run_actions reachable_start reached
  have claims := RoomOutboxClaims.reachable_claims_sound
    RoomOutboxClaims.empty_database_untouched stored
  obtain ⟨row, listed, decoded⟩ := claims.known handover (List.mem_of_head? head)
  have denotes : databaseColumns.uuid lowerLobby = some handover.event.roomID := by
    rw [room]
    decide +kernel
  have both := dispatched_to_room_iff .singleInstance databaseColumns database_columns_keep
    (fun _ : Unit => greetingTo lowerLobby) (fun _ => lowerLobby) store stored
    (fun _ : Unit => joined .singleInstance lowerLobby) (fun _ => joined_reachable _ _)
    (fun _ => rfl) row listed handover.event decoded
  exact ⟨handover.event, handed, room,
    both.2.mpr (fun _ _ _ _ => room.symm) () () (by decide +kernel) denotes⟩

/-- A client that has written its room id in upper case sends a message to the
room and is still registered when it is dispatched. -/
theorem upper_case_not_delivered :
    databaseColumns.uuid upperLobby = some lowerLobby ∧
      (handedOver upperLobby).map (fun event => (event.message.roomID, event.roomID)) =
        some (upperLobby, lowerLobby) ∧
      ((handedOver upperLobby).bind fun event =>
        (received .singleInstance (joined .singleInstance upperLobby) event).bind fun envelope =>
          runActions (hubStep .singleInstance fun _ => upperLobby) RegistersOnce
            (joined .singleInstance upperLobby) [.broadcast envelope [], .next]).map
        (fun hub => (present (fun _ => upperLobby) hub.history (), hub.puts ())) =
        some (true, []) := by
  decide +kernel

end Results

end ChatScale.RoomSpelling
