import ChatScale.RoomHubMembership

/-!
# What the clients of a server are written

The server of the earlier stages with a record of what it has done: the messages
that `Run` has taken, what it has put on the send channels and closed, and the
text frames each `WritePump` has written. The record makes every state of the
server one of `Run` over messages, and says how far the pump of a client is
behind `Run`.
-/

namespace ChatScale.RoomSockets

open ChatScale.ByteText ChatScale.HubRooms ChatScale.RoomHubModel
open ChatScale.RoomHubRun ChatScale.RoomHubMembership ChatScale.TransitionSystem

set_option autoImplicit false

variable {Client : Type} [DecidableEq Client]

section Clients

/-- The client's registration has been taken. -/
def pastRegister : ReadStage → Bool
  | .absent => false
  | .registering => false
  | _ => true

/-- What a client's own move does: it takes one payload from its channel or none. -/
structure TakesOne (before after : ClientState) : Prop where
  closed : after.sendClosed = before.sendClosed
  past : pastRegister after.read = pastRegister before.read
  taken : after.send = before.send ∨ ∃ payload, before.send = payload :: after.send

theorem client_move_takes {move : ClientMove} {before after : ClientState}
    (moved : clientMove move before = some after) : TakesOne before after := by
  unfold clientMove at moved
  split at moved
  case h_3 =>
      split_ifs at moved
      cases moved
      exact ⟨rfl, rfl, .inl rfl⟩
  case h_6 =>
      cases moved
      exact ⟨rfl, rfl, .inr ⟨_, rfl⟩⟩
  case h_13 => cases moved
  all_goals
      cases moved
      exact ⟨rfl, rfl, .inl rfl⟩

end Clients

section Recording

structure Server (Client : Type) [DecidableEq Client] where
  state : State Client
  history : List (Message Client)
  puts : Client → List Bytes
  closings : List Client
  written : Client → List Bytes

def started : Server Client := ⟨initial, [], fun _ => [], [], fun _ => []⟩

/-- What `Run` takes from its channels in a step. -/
def taken : Action Client → List (Message Client)
  | .register client => [.register client]
  | .unregister client => [.unregister client]
  | .handle envelope _ => [.broadcast envelope]
  | _ => []

def put (state : State Client) : Action Client → Option (Client × Bytes)
  | .send =>
      match state.run with
      | .sending payload (client :: _) => some (client, payload)
      | _ => none
  | _ => none

def closing (roomOf : Client → Bytes) (state : State Client) : Action Client → List Client
  | .unregister client =>
      if (state.rooms.clientAt (roomOf client) client).isSome then [client] else []
  | _ => []

def frame (state : State Client) : Action Client → Option (Client × Bytes)
  | .client client .write =>
      match (state.clients client).pump with
      | .writing payload => some (client, payload)
      | _ => none
  | _ => none

def note (lists : Client → List Bytes) : Option (Client × Bytes) → Client → List Bytes
  | none => lists
  | some (client, payload) => Function.update lists client (lists client ++ [payload])

def record (roomOf : Client → Bytes) (server : Server Client) (action : Action Client)
    (next : State Client) : Server Client where
  state := next
  history := server.history ++ taken action
  puts := note server.puts (put server.state action)
  closings := server.closings ++ closing roomOf server.state action
  written := note server.written (frame server.state action)

def serverStep (variant : Variant) (roomOf : Client → Bytes) (server : Server Client)
    (action : Action Client) : Option (Server Client) :=
  (step variant roomOf server.state action).map (record roomOf server action)

end Recording

section Projection

def stageOf : RunStage Client → Stage Client
  | .selecting => .selecting
  | .sending payload remaining => .sending payload remaining

def channels (clients : Client → ClientState) (client : Client) : SendChannel :=
  ⟨(clients client).send, (clients client).sendClosed⟩

/-- The state of `Run` that a server and its record show. -/
def hubOf (server : Server Client) : HubState Client where
  rooms := server.state.rooms
  sends := channels server.state.clients
  stage := stageOf server.state.run
  subscriptions := server.state.subscriptions
  history := server.history
  puts := server.puts
  closings := server.closings

variable {variant : Variant} {roomOf : Client → Bytes} {server after : Server Client}
  {client : Client} {action : Action Client}

theorem channels_update (clients : Client → ClientState) (client : Client) (new : ClientState) :
    channels (Function.update clients client new) =
      Function.update (channels clients) client ⟨new.send, new.sendClosed⟩ := by
  funext other
  by_cases same : other = client
  · rw [same, channels, Function.update_self, Function.update_self]
  · rw [channels, Function.update_of_ne same, Function.update_of_ne same, channels]

theorem channels_same (clients : Client → ClientState) (client : Client) (new : ClientState)
    (send : new.send = (clients client).send)
    (closed : new.sendClosed = (clients client).sendClosed) :
    channels (Function.update clients client new) = channels clients := by
  rw [channels_update, send, closed]
  exact Function.update_eq_self client (channels clients)

/-- `Run` takes a step, or its state is the same. -/
def HubFollows (variant : Variant) (roomOf : Client → Bytes) (server after : Server Client) :
    Prop :=
  hubOf after = hubOf server ∨ ∃ action, RegistersOnce (hubOf server) action ∧
    hubStep variant roomOf (hubOf server) action = some (hubOf after)

/-- A client's registration has been taken exactly if it is past it. -/
def Registered (server : Server Client) : Prop :=
  ∀ client, Message.register client ∈ server.history ↔
    pastRegister (server.state.clients client).read = true

theorem client_hub_follows {move : ClientMove} {new : ClientState}
    (moved : clientMove move (server.state.clients client) = some new) :
    HubFollows variant roomOf server
      (record roomOf server (.client client move) (setClient server.state client new)) := by
  have takes := client_move_takes moved
  rcases takes.taken with kept | ⟨payload, shorter⟩
  · left
    simp only [hubOf, record, setClient,
      channels_same server.state.clients client new kept takes.closed, taken, put, note,
      closing, List.append_nil]
  · right
    refine ⟨.receive client, trivial, ?_⟩
    have channel : (hubOf server).sends client =
        ⟨payload :: new.send, (server.state.clients client).sendClosed⟩ := by
      simp only [hubOf, channels, shorter]
    rw [hub_step_receive, receiveCase, channel]
    simp only [hubOf, record, setClient, channels_update, takes.closed, taken, put, note, closing,
      List.append_nil]

theorem server_hub_follows (sound : HubSound variant roomOf (hubOf server))
    (registered : Registered server)
    (stepped : serverStep variant roomOf server action = some after) :
    HubFollows variant roomOf server after := by
  rcases Option.map_eq_some_iff.mp stepped with ⟨next, moved, rfl⟩
  cases step_cases moved with
  | client changed => exact client_hub_follows changed
  | @register client pump send ended selecting registering =>
      refine .inr ⟨.register client, ?_, ?_⟩
      · intro listed
        have past := (registered client).mp listed
        rw [registering] at past
        cases past
      · have same := channels_same server.state.clients client ⟨.registered, pump, send, ended⟩
          (by rw [registering]) (by rw [registering])
        simp only [hubStep, hubOf, registerCase, record, setClient, selecting, stageOf, same, taken,
          closing, List.append_nil]
        rfl
  | @leave client pump send ended selecting unregistering member =>
      -- A client in its room has an open channel, so that closing it does not panic.
      have isOpen : (server.state.clients client).sendClosed = false :=
        sound_open sound ((place_present sound client).mp member)
      rw [unregistering] at isOpen
      refine .inr ⟨.unregister client, trivial, ?_⟩
      simp only [hubStep, hubOf, unregisterCase, record, setClient, selecting, stageOf, taken,
        closing, member, if_true, channels_update, channels, unregistering, isOpen,
        Bool.false_eq_true, if_false]
      rfl
  | @unknown client pump send ended selecting unregistering absent =>
      have same := channels_same server.state.clients client ⟨.ended, pump, send, ended⟩
        (by rw [unregistering]) (by rw [unregistering])
      refine .inr ⟨.unregister client, trivial, ?_⟩
      simp only [hubStep, hubOf, unregisterCase, record, setClient, selecting, stageOf, taken, put,
        note, closing, absent, Bool.false_eq_true, if_false, same, List.append_nil]
  | broadcast single =>
      left
      simp only [hubOf, record, taken, put, note, closing, List.append_nil]
  | consume naive idle =>
      left
      simp only [hubOf, record, taken, put, note, closing, List.append_nil]
  | @handle envelope targets selecting offered reordered =>
      refine .inr ⟨.broadcast envelope targets, trivial, ?_⟩
      simp only [hubStep, hubOf, selecting, stageOf, record, taken, put, note, closing,
        List.append_nil, if_pos reordered]
  | send sending room isOpen =>
      refine .inr ⟨.send, trivial, ?_⟩
      simp only [hubStep, hubOf, sending, stageOf, sendCase, channels, room, isOpen,
        Bool.false_eq_true, if_false, if_true, record, setClient, taken, put, note, closing,
        List.append_nil, channels_update]
  | next sending =>
      refine .inr ⟨.next, trivial, ?_⟩
      simp only [hubStep, hubOf, sending, stageOf, record, taken, put, note, closing,
        List.append_nil]

end Projection

section Pumps

/-- The payload a pump is writing. -/
def inHand : PumpStage → List Bytes
  | .writing payload => [payload]
  | _ => []

/-- The payload a client's move has written. -/
def writes (client : ClientState) : ClientMove → List Bytes
  | .write => inHand client.pump
  | _ => []

/-- A pump that has not returned passes on what it took from the channel. -/
theorem client_move_passes {move : ClientMove} {before after : ClientState}
    (moved : clientMove move before = some after) (pumping : after.pump ≠ .returned) :
    before.pump ≠ .returned ∧ inHand before.pump ++ before.send =
      writes before move ++ (inHand after.pump ++ after.send) := by
  unfold clientMove at moved
  split at moved
  case h_3 =>
      split_ifs at moved
      cases moved
      exact ⟨pumping, rfl⟩
  case h_13 => cases moved
  all_goals
      cases moved
      simp_all [inHand, writes]

theorem client_move_writes {move : ClientMove} {before after : ClientState}
    (moved : clientMove move before = some after) (some : writes before move ≠ []) :
    before.pump ≠ .returned ∧ writes before move = inHand before.pump := by
  cases move with
  | write =>
      refine ⟨?_, rfl⟩
      intro returned
      rw [writes, returned] at some
      exact some rfl
  | _ => exact absurd rfl some

end Pumps

section Sockets

variable {variant : Variant} {roomOf : Client → Bytes} {server after : Server Client}
  {client : Client} {action : Action Client}

/-- The part of a note that is about a client. -/
def own (client : Client) : Option (Client × Bytes) → List Bytes
  | none => []
  | some (other, payload) => if other = client then [payload] else []

theorem note_apply (lists : Client → List Bytes) (noted : Option (Client × Bytes))
    (client : Client) : note lists noted client = lists client ++ own client noted := by
  cases noted with
  | none => exact (List.append_nil _).symm
  | some both =>
      rcases both with ⟨other, payload⟩
      by_cases same : other = client
      · rw [note, own, if_pos same, same, Function.update_self]
      · rw [note, own, if_neg same, List.append_nil, Function.update_of_ne (Ne.symm same)]

theorem record_written (next : State Client) :
    (record roomOf server action next).written client =
      server.written client ++ own client (frame server.state action) := note_apply _ _ _

theorem record_puts (next : State Client) :
    (record roomOf server action next).puts client =
      server.puts client ++ own client (put server.state action) := note_apply _ _ _

/-- What is written to a client was put on its channel; while the pump has not
returned, the rest is in its hands and on the channel. -/
structure SocketSound (server : Server Client) (client : Client) : Prop where
  behind : server.written client <+: server.puts client
  pumping : (server.state.clients client).pump ≠ .returned → server.puts client =
    server.written client ++ (inHand (server.state.clients client).pump ++
      (server.state.clients client).send)

theorem socket_same (sound : SocketSound server client)
    (written : after.written client = server.written client)
    (puts : after.puts client = server.puts client)
    (pump : (after.state.clients client).pump = (server.state.clients client).pump)
    (send : (after.state.clients client).send = (server.state.clients client).send) :
    SocketSound after client := by
  constructor
  · rw [written, puts]
    exact sound.behind
  · rw [written, puts, pump, send]
    exact sound.pumping

/-- A step of another client, and one of `Run` that sends nothing. -/
theorem quiet_socket_sound {next : State Client} (sound : SocketSound server client)
    (written : own client (frame server.state action) = [])
    (puts : own client (put server.state action) = [])
    (pump : (next.clients client).pump = (server.state.clients client).pump)
    (send : (next.clients client).send = (server.state.clients client).send) :
    SocketSound (record roomOf server action next) client := by
  apply socket_same sound _ _ pump send
  · rw [record_written, written, List.append_nil]
  · rw [record_puts, puts, List.append_nil]

theorem frame_own (state : State Client) (client : Client) (move : ClientMove) :
    own client (frame state (.client client move)) = writes (state.clients client) move := by
  cases move with
  | write =>
      cases stage : (state.clients client).pump <;> simp [frame, writes, inHand, own, stage]
  | _ => rfl

theorem frame_other (state : State Client) {client other : Client} (move : ClientMove)
    (apart : other ≠ client) : own client (frame state (.client other move)) = [] := by
  cases move with
  | write =>
      cases stage : (state.clients other).pump <;> simp [frame, own, stage, apart]
  | _ => rfl

theorem own_socket_sound {move : ClientMove} {new : ClientState} (sound : SocketSound server client)
    (moved : clientMove move (server.state.clients client) = some new) :
    SocketSound (record roomOf server (.client client move) (setClient server.state client new))
      client := by
  have puts : (record roomOf server (.client client move)
      (setClient server.state client new)).puts client = server.puts client := rfl
  have written : (record roomOf server (.client client move)
      (setClient server.state client new)).written client =
        server.written client ++ writes (server.state.clients client) move := by
    rw [record_written, frame_own]
  constructor
  · rw [puts, written]
    by_cases quiet : writes (server.state.clients client) move = []
    · rw [quiet, List.append_nil]
      exact sound.behind
    · rcases client_move_writes moved quiet with ⟨pumping, writing⟩
      rw [sound.pumping pumping, writing, ← List.append_assoc]
      exact List.prefix_append _ _
  · intro pumping
    have now : (record roomOf server (.client client move)
        (setClient server.state client new)).state.clients client = new :=
      set_client_self server.state client new
    rw [now] at pumping ⊢
    rcases client_move_passes moved pumping with ⟨before, passes⟩
    rw [puts, written, sound.pumping before, passes, List.append_assoc]

/-- `Run` puts a payload on the channel of the client. -/
theorem send_socket_sound {next : State Client} {payload : Bytes}
    (sound : SocketSound server client)
    (puts : own client (put server.state .send) = [payload])
    (now : next.clients client = { server.state.clients client with
      send := (server.state.clients client).send ++ [payload] }) :
    SocketSound (record roomOf server .send next) client := by
  have written : (record roomOf server .send next).written client = server.written client := rfl
  have here : (record roomOf server .send next).state.clients client = next.clients client := rfl
  constructor
  · rw [record_puts, written, puts]
    exact sound.behind.trans (List.prefix_append _ _)
  · rw [record_puts, written, here, now, puts]
    intro pumping
    rw [sound.pumping pumping]
    simp only [List.append_assoc]

/-- `Run` changes where a client reads, and nothing else of it that its pump sees. -/
theorem read_socket_sound {other : Client} {next : State Client} {new : ClientState}
    (sound : SocketSound server client)
    (pump : new.pump = (server.state.clients other).pump)
    (send : new.send = (server.state.clients other).send)
    (clients : next.clients = (setClient server.state other new).clients)
    (written : own client (frame server.state action) = [])
    (puts : own client (put server.state action) = []) :
    SocketSound (record roomOf server action next) client := by
  apply quiet_socket_sound sound written puts
  · rw [clients]
    by_cases same : client = other
    · rw [same, set_client_self, pump]
    · rw [set_client_other server.state new same]
  · rw [clients]
    by_cases same : client = other
    · rw [same, set_client_self, send]
    · rw [set_client_other server.state new same]

theorem server_socket_sound (sound : SocketSound server client)
    (stepped : serverStep variant roomOf server action = some after) :
    SocketSound after client := by
  rcases Option.map_eq_some_iff.mp stepped with ⟨next, moved, rfl⟩
  cases step_cases moved with
  | @client other move new changed =>
      by_cases same : other = client
      · rw [same] at changed ⊢
        exact own_socket_sound sound changed
      · have kept := set_client_other server.state new (Ne.symm same)
        apply quiet_socket_sound sound (frame_other server.state move same) rfl
        · rw [kept]
        · rw [kept]
  | register selecting registering =>
      exact read_socket_sound sound (by rw [registering]) (by rw [registering]) rfl rfl rfl
  | leave selecting unregistering member =>
      exact read_socket_sound sound (by rw [unregistering]) (by rw [unregistering]) rfl rfl rfl
  | unknown selecting unregistering absent =>
      exact read_socket_sound sound (by rw [unregistering]) (by rw [unregistering]) rfl rfl rfl
  | @send payload other rest sending room isOpen =>
      have puts : put server.state .send = some (other, payload) := by
        simp only [put, sending]
      by_cases same : other = client
      · rw [same] at puts ⊢
        apply send_socket_sound sound
        · rw [puts, own, if_pos rfl]
        · exact set_client_self _ _ _
      · have kept := set_client_other server.state { server.state.clients other with
          send := (server.state.clients other).send ++ [payload] } (Ne.symm same)
        apply quiet_socket_sound sound rfl
        · rw [puts, own, if_neg same]
        · rw [kept]
        · rw [kept]
  | _ => exact quiet_socket_sound sound rfl rfl rfl rfl

end Sockets

section Invariant

variable {variant : Variant} {roomOf : Client → Bytes} {server after : Server Client}
  {action : Action Client}

theorem started_registered : Registered (started : Server Client) := by
  intro client
  exact iff_of_false List.not_mem_nil Bool.false_ne_true

theorem set_client_past (state : State Client) {other : Client} {new : ClientState}
    (past : pastRegister new.read = pastRegister (state.clients other).read) (client : Client) :
    pastRegister ((setClient state other new).clients client).read =
      pastRegister (state.clients client).read := by
  by_cases same : client = other
  · rw [same, set_client_self, past]
  · rw [set_client_other state new same]

/-- Only `Run` takes a client past its registration. -/
theorem server_registered (registered : Registered server)
    (stepped : serverStep variant roomOf server action = some after) : Registered after := by
  rcases Option.map_eq_some_iff.mp stepped with ⟨next, moved, rfl⟩
  intro client
  have kept (unlisted : Message.register client ∉ taken action)
      (past : pastRegister (next.clients client).read =
        pastRegister (server.state.clients client).read) :
      Message.register client ∈ server.history ++ taken action ↔
        pastRegister (next.clients client).read = true := by
    rw [List.mem_append, or_iff_left unlisted, past]
    exact registered client
  cases step_cases moved with
  | client changed =>
      exact kept List.not_mem_nil
        (set_client_past server.state (client_move_takes changed).past client)
  | @register other pump send ended selecting registering =>
      by_cases same : client = other
      · refine iff_of_true (List.mem_append_right _ (same ▸ List.mem_singleton_self _)) ?_
        simp only [record, setClient, same, Function.update_self, pastRegister]
      · apply kept
        · intro listed
          cases List.mem_singleton.mp listed
          exact same rfl
        · exact congrArg (pastRegister ·.read) (set_client_other server.state _ same)
  | leave selecting unregistering member =>
      refine kept (by simp [taken]) (set_client_past server.state ?_ client)
      rw [unregistering]
      rfl
  | unknown selecting unregistering absent =>
      refine kept (by simp [taken]) (set_client_past server.state ?_ client)
      rw [unregistering]
      rfl
  | handle selecting offered reordered => exact kept (by simp [taken]) rfl
  | send sending room isOpen =>
      exact kept List.not_mem_nil (set_client_past server.state (by rfl) client)
  | _ => exact kept List.not_mem_nil rfl

/-- `Run` takes the registration of a client once. -/
theorem server_registers_once (registered : Registered server)
    (once : ∀ client, server.history.count (.register client) ≤ 1)
    (stepped : serverStep variant roomOf server action = some after) (client : Client) :
    after.history.count (.register client) ≤ 1 := by
  rcases Option.map_eq_some_iff.mp stepped with ⟨next, moved, rfl⟩
  have before := once client
  cases step_cases moved with
  | @register other pump send ended selecting registering =>
      simp only [record, taken, List.count_append, List.count_singleton, beq_iff_eq,
        Message.register.injEq]
      split_ifs with same
      · have new : Message.register client ∉ server.history := by
          rw [registered client, ← same, registering]
          exact Bool.false_ne_true
        rw [List.count_eq_zero_of_not_mem new]
      · exact before
  | _ => simpa [record, taken, List.count_append] using before

structure ServerSound (variant : Variant) (roomOf : Client → Bytes) (server : Server Client) :
    Prop where
  hub : HubSound variant roomOf (hubOf server)
  registered : Registered server
  once : ∀ client, server.history.count (.register client) ≤ 1
  sockets : ∀ client, SocketSound server client

theorem started_server_sound (variant : Variant) (roomOf : Client → Bytes) :
    ServerSound variant roomOf (started : Server Client) where
  hub := start_sound variant roomOf
  registered := started_registered
  once := fun _ => Nat.zero_le _
  sockets := fun _ => ⟨List.prefix_rfl, fun _ => rfl⟩

theorem server_step_sound (sound : ServerSound variant roomOf server)
    (stepped : serverStep variant roomOf server action = some after) :
    ServerSound variant roomOf after where
  hub := by
    rcases server_hub_follows sound.hub sound.registered stepped with
      same | ⟨hubAction, first, followed⟩
    · rw [same]
      exact sound.hub
    · exact hub_step_sound sound.hub first followed
  registered := server_registered sound.registered stepped
  once := server_registers_once sound.registered sound.once stepped
  sockets := fun client => server_socket_sound (sound.sockets client) stepped

/-- Every state of the server has a record. -/
theorem state_recorded {state : State Client}
    (reached : Reachable (step variant roomOf) anyStep initial state) :
    ∃ server, Reachable (serverStep variant roomOf) anyStep started server ∧
      state = server.state := by
  apply reachable_simulation (fun state (server : Server Client) => state = server.state) rfl _
    reached
  intro before action after server _ same _ stepped
  subst same
  refine .inr ⟨action, record roomOf server action after, trivial, ?_, rfl⟩
  rw [serverStep, stepped, Option.map_some]

/-- The next client of a broadcast has an open channel: the send waits for room in the
buffer and for nothing else. -/
theorem server_sends_open {state : State Client}
    (reached : Reachable (step variant roomOf) anyStep initial state)
    {payload : Bytes} {client : Client} {rest : List Client}
    (sending : state.run = .sending payload (client :: rest)) :
    (state.clients client).sendClosed = false := by
  rcases state_recorded reached with ⟨server, recorded, rfl⟩
  have sound : ServerSound variant roomOf server :=
    reachable_invariant (ServerSound variant roomOf) (started_server_sound variant roomOf)
      (fun _ _ _ before _ stepped => server_step_sound before stepped) recorded
  have loop := sound.hub.loop
  rw [hubOf, sending] at loop
  exact sound_open sound.hub (loop.2 client List.mem_cons_self)

end Invariant

end ChatScale.RoomSockets
