import ChatScale.PresenceBlocks

/-!
# What a call does to other connections

Client keys and room keys live in one key space. Room keys start with `room:`,
client keys start with the client id, which comes from the query string. A client
whose id starts with `room:` has a client key that is the key of a room as well,
and its `Connect` deletes the hash of that room. The calls of every other client
leave all other connections as they are.
-/

namespace ChatScale.PresenceIsolation

open ChatScale.ByteText ChatScale.RedisKeyspace ChatScale.PresenceModel
open ChatScale.PresenceBlocks ChatScale.TransitionSystem

set_option autoImplicit false

section Keys

variable {clientID instanceName client server : Bytes}

/-- The byte between client id and instance name. -/
def bar : UInt8 := 124

theorem client_key_bar (clientID instanceName : Bytes) :
    clientKey clientID instanceName = clientID ++ bar :: instanceName := by
  rw [clientKey, List.append_assoc]
  rfl

/-- A part that starts with the only bar of a text starts the text. -/
theorem bar_splits {before : Bytes} (free : bar ∉ instanceName)
    (same : bar :: instanceName = before ++ bar :: server) :
    before = [] ∧ instanceName = server := by
  cases before with
  | nil => exact ⟨rfl, (List.cons.inj same).2⟩
  | cons first rest =>
      have split : instanceName = rest ++ bar :: server := (List.cons.inj same).2
      rw [split] at free
      exact absurd (List.mem_append_right _ List.mem_cons_self) free

/-- The last bar of a client key ends the client id. -/
theorem client_key_injective (free : bar ∉ instanceName) (alsoFree : bar ∉ server)
    (same : clientKey clientID instanceName = clientKey client server) :
    (clientID, instanceName) = (client, server) := by
  rw [client_key_bar, client_key_bar] at same
  rcases List.append_eq_append_iff.mp same with ⟨between, longer, rest⟩ | ⟨between, longer, rest⟩
  · rcases bar_splits free rest with ⟨rfl, sameServer⟩
    rw [longer, sameServer, List.append_nil]
  · rcases bar_splits alsoFree rest with ⟨rfl, sameServer⟩
    rw [longer, sameServer, List.append_nil]

/-- The client id starts as the keys of the rooms do. -/
def namesRoom (clientID : Bytes) : Prop := ascii "room:" <+: clientID

/-- There is no bar in `room:`, so a client key starts with it only if the client
id does. -/
theorem room_key_named {room : Bytes} (same : clientKey clientID instanceName = roomKey room) :
    namesRoom clientID := by
  rw [client_key_bar] at same
  have starts : ascii "room:" <+: clientID ++ bar :: instanceName := ⟨room, same.symm⟩
  by_cases short : (ascii "room:").length ≤ clientID.length
  · exact List.prefix_of_prefix_length_le starts (List.prefix_append _ _) short
  · have longer : clientID ++ [bar] <+: clientID ++ bar :: instanceName :=
      ⟨instanceName, by rw [List.append_assoc]; rfl⟩
    have fits : (clientID ++ [bar]).length ≤ (ascii "room:").length := by
      rw [List.length_append, List.length_singleton]
      omega
    have inside : clientID ++ [bar] <+: ascii "room:" :=
      List.prefix_of_prefix_length_le longer starts fits
    have listed : bar ∈ ascii "room:" :=
      inside.subset (List.mem_append_right _ List.mem_cons_self)
    exact absurd listed (by decide)

end Keys

section Confinement

variable {key : Bytes}

/-- The command acts on the client key, or on fields of its name. -/
def Confined (key : Bytes) : Command → Prop
  | .hset _ name _ => name = key
  | .hexpire _ _ name => name = key
  | .hdel _ name => name = key
  | .sadd target _ => target = key
  | .expire target _ => target = key
  | .del target => target = key

theorem confined_set {command : Command} (confined : Confined key command) {other : Bytes}
    (differ : key ≠ other) : command.actsOnSet other = false := by
  cases command with
  | sadd target members => exact beq_eq_false_iff_ne.mpr (confined.symm ▸ differ)
  | expire target ttl => exact beq_eq_false_iff_ne.mpr (confined.symm ▸ differ)
  | del target => exact beq_eq_false_iff_ne.mpr (confined.symm ▸ differ)
  | _ => rfl

theorem confined_field {command : Command} (confined : Confined key command) {hash name : Bytes}
    (differ : key ≠ name) (apart : key ≠ hash) : command.changesField hash name = false := by
  cases command with
  | hset target field value => exact beq_eq_false_iff_ne.mpr (confined.symm ▸ differ)
  | hexpire target ttl field => exact beq_eq_false_iff_ne.mpr (confined.symm ▸ differ)
  | hdel target field => exact beq_eq_false_iff_ne.mpr (confined.symm ▸ differ)
  | del target => exact beq_eq_false_iff_ne.mpr (confined.symm ▸ apart)
  | _ => rfl

variable {clientID instanceName : Bytes} {roomsId : List Bytes}

theorem save_rooms_confined (command : Command)
    (listed : command ∈ saveRooms clientID instanceName roomsId) :
    Confined (clientKey clientID instanceName) command := by
  rcases List.mem_flatMap.mp listed with ⟨room, _, member⟩
  simp only [saveRoom, List.mem_cons, List.not_mem_nil, or_false] at member
  rcases member with rfl | rfl
  · rfl
  · rfl

theorem connect_confined (command : Command)
    (listed : command ∈ connectBlock clientID instanceName roomsId) :
    Confined (clientKey clientID instanceName) command := by
  rcases List.mem_append.mp listed with saved | client
  · exact save_rooms_confined command saved
  · simp only [saveClient, List.mem_cons, List.not_mem_nil, or_false] at client
    rcases client with rfl | rfl | rfl
    · rfl
    · rfl
    · rfl

theorem ping_confined (command : Command)
    (listed : command ∈ pingBlock clientID instanceName roomsId) :
    Confined (clientKey clientID instanceName) command := by
  rcases List.mem_append.mp listed with saved | refreshed
  · exact save_rooms_confined command saved
  · rw [List.mem_singleton.mp refreshed]
    rfl

theorem disconnect_confined (command : Command)
    (listed : command ∈ disconnectBlock clientID instanceName roomsId) :
    Confined (clientKey clientID instanceName) command := by
  rcases List.mem_cons.mp listed with rfl | removed
  · rfl
  · rcases List.mem_map.mp removed with ⟨room, _, rfl⟩
    rfl

/-- The room set of a connection and all its fields are the same, with their
expiries. -/
def Unchanged (now : Nat) (before after : Keyspace) (key : Bytes) : Prop :=
  setAt after now key = setAt before now key ∧
    ∀ room, fieldAt after now (roomKey room) key = fieldAt before now (roomKey room) key

theorem exec_unchanged {now : Nat} {db : Keyspace} {commands : List Command} {other : Bytes}
    (confined : ∀ command ∈ commands, Confined key command) (differ : key ≠ other)
    (apart : ∀ room, key ≠ roomKey room) : Unchanged now db (exec now db commands).1 other := by
  rw [exec]
  split_ifs
  · refine ⟨run_all_set_kept fun command listed => confined_set (confined command listed) differ,
      fun room => ?_⟩
    exact run_all_field_same fun command listed =>
      confined_field (confined command listed) differ (apart room)
  · exact ⟨rfl, fun _ => rfl⟩

variable {Call : Type} [DecidableEq Call] {state after : State Call} {id : Call}

theorem exec_step_unchanged {commands : List Command} {block : Option Executed} {other : Bytes}
    (confined : ∀ command ∈ commands, Confined key command) (differ : key ≠ other)
    (apart : ∀ room, key ≠ roomKey room) (outcome : Outcome) :
    Unchanged state.now state.db (execStep state id commands block outcome).db other := by
  cases outcome with
  | answered => exact exec_unchanged confined differ apart
  | lost => exact exec_unchanged confined differ apart
  | refused => exact ⟨rfl, fun _ => rfl⟩

/-- A step of a call leaves the store as it is, or executes a block that is
confined to its client key. -/
theorem call_step_unchanged {request : Request} {stage : CallStage} {move : Move} {other : Bytes}
    (stepped : callStep state id request stage move = some after) (differ : request.key ≠ other)
    (apart : ∀ room, request.key ≠ roomKey room) :
    Unchanged state.now state.db after.db other := by
  unfold callStep at stepped
  split at stepped
  · cases stepped
    exact exec_step_unchanged connect_confined differ apart _
  · dsimp only at stepped
    split at stepped
    · cases stepped
      exact ⟨rfl, fun _ => rfl⟩
    · cases stepped
      exact ⟨rfl, fun _ => rfl⟩
    · cases stepped
      exact ⟨rfl, fun _ => rfl⟩
  · cases stepped
    exact exec_step_unchanged disconnect_confined differ apart _
  · cases stepped
    exact ⟨rfl, fun _ => rfl⟩
  · cases stepped
    exact exec_step_unchanged ping_confined differ apart _
  · cases stepped

end Confinement

section Results

/-- In every state of every run, a step of a call of the connection leaves all
other connections unchanged. The instance names of all calls are free of bars;
client ids and rooms are arbitrary. -/
def Isolated (clientID instanceName : Bytes) : Prop :=
  ∀ (Call : Type) [DecidableEq Call] (requests : Call → Request),
    (∀ id, bar ∉ (requests id).pair.2) →
    ∀ state, Reachable (step requests) anyStep initial state →
    ∀ id move after, (requests id).pair = (clientID, instanceName) →
      step requests state (.call id move) = some after →
    ∀ client server, bar ∉ server → (client, server) ≠ (clientID, instanceName) →
      Unchanged state.now state.db after.db (clientKey client server)

variable {clientID instanceName : Bytes}

theorem other_ids_isolated (free : bar ∉ instanceName) (ordinary : ¬ namesRoom clientID) :
    Isolated clientID instanceName := by
  intro Call _ requests _ state _ id move after own stepped client server alsoFree differ
  have key : (requests id).key = clientKey clientID instanceName := by
    rw [request_key, own]
    rfl
  apply call_step_unchanged stepped
  · rw [key]
    intro same
    exact differ (client_key_injective free alsoFree same).symm
  · intro room same
    rw [key] at same
    exact ordinary (room_key_named same)

/-- Somebody joins the room whose key is the client key of the second call, which
connects then. -/
def colliding (rest instanceName : Bytes) : Bool → Request
  | false => .connect (ascii "c1") instanceName [rest ++ bar :: instanceName]
  | true => .connect (ascii "room:" ++ rest) instanceName [ascii "r1"]

theorem collides (rest instanceName : Bytes) :
    roomKey (rest ++ bar :: instanceName) = clientKey (ascii "room:" ++ rest) instanceName := by
  rw [client_key_bar, roomKey, List.append_assoc]

theorem set_has_no_field {db : Keyspace} {now : Nat} {key name : Bytes}
    {content : List Bytes × Option Nat} (found : setAt db now key = some content) :
    fieldAt db now key name = none := by
  unfold setAt at found
  split at found
  · rename_i members expiry entry
    exact field_at_of_set entry
  · cases found

/-- The state after the first of the two calls. -/
def joined (rest instanceName : Bytes) : State Bool :=
  execStep initial false (connectBlock (ascii "c1") instanceName [rest ++ bar :: instanceName])
    (some (.connected (ascii "c1") instanceName [rest ++ bar :: instanceName])) .answered

theorem joined_reachable (rest instanceName : Bytes) :
    Reachable (step (colliding rest instanceName)) anyStep initial (joined rest instanceName) :=
  reachable_step reachable_start trivial
    (show step (colliding rest instanceName) initial (.call false (.exec .answered)) = some _ from
      rfl)

theorem joined_field (rest instanceName : Bytes) :
    fieldAt (joined rest instanceName).db 0 (roomKey (rest ++ bar :: instanceName))
      (clientKey (ascii "c1") instanceName) = some ⟨instanceName, some connTTL⟩ := by
  have apart : ∀ room, clientKey (ascii "c1") instanceName ≠ roomKey room := by
    intro room same
    have named : ascii "room:" <+: ascii "c1" := room_key_named same
    exact absurd named (by decide)
  have writes : Writes 0 (fun _ => none) (exec 0 (fun _ => none)
      (connectBlock (ascii "c1") instanceName [rest ++ bar :: instanceName])) _ _ _ _ :=
    connect_writes (List.cons_ne_nil _ _) (fun _ _ => rfl) (fun _ => rfl) (fun room _ => apart room)
  have covered : Covers [rest ++ bar :: instanceName] (clientKey (ascii "c1") instanceName)
      (roomKey (rest ++ bar :: instanceName)) (clientKey (ascii "c1") instanceName) :=
    ⟨rfl, List.mem_cons_self⟩
  refine (writes.fields _ _).trans ((if_pos covered).trans ?_)
  rw [Nat.zero_add]

/-- The `Connect` of such a client deletes the hash of a room, and with it the
fields of others. -/
theorem room_ids_not_isolated (free : bar ∉ instanceName) (rest : Bytes) :
    ¬ Isolated (ascii "room:" ++ rest) instanceName := by
  intro isolated
  have names : ∀ id, bar ∉ (colliding rest instanceName id).pair.2 := by
    intro id
    cases id with
    | false => exact free
    | true => exact free
  have different : (ascii "c1", instanceName) ≠ (ascii "room:" ++ rest, instanceName) := by
    intro same
    have first := congrArg List.head? (Prod.mk.inj same).1
    cases first
  have unchanged := isolated Bool (colliding rest instanceName) names (joined rest instanceName)
    (joined_reachable rest instanceName) true (.exec .answered) _ rfl rfl (ascii "c1")
    instanceName free different
  have kept := unchanged.2 (rest ++ bar :: instanceName)
  have deleted : fieldAt (exec 0 (joined rest instanceName).db
      (connectBlock (ascii "room:" ++ rest) instanceName [ascii "r1"])).1 0
      (roomKey (rest ++ bar :: instanceName)) (clientKey (ascii "c1") instanceName) = none := by
    rw [collides, exec, if_pos (connect_complete (List.cons_ne_nil _ _))]
    exact set_has_no_field (connect_set 0 _ (ascii "room:" ++ rest) instanceName [ascii "r1"])
  cases deleted.symm.trans (kept.trans (joined_field rest instanceName))

/-- A connection's calls leave every other connection alone exactly when its
client id does not start with `room:`. -/
theorem calls_isolated_iff (clientID instanceName : Bytes) (free : bar ∉ instanceName) :
    Isolated clientID instanceName ↔ ¬ ascii "room:" <+: clientID := by
  constructor
  · rintro isolated ⟨rest, rfl⟩
    exact room_ids_not_isolated free rest isolated
  · exact other_ids_isolated free

theorem plain_client_isolated :
    bar ∉ ascii "inst-a" ∧ Isolated (ascii "c1") (ascii "inst-a") :=
  ⟨by decide, (calls_isolated_iff (ascii "c1") (ascii "inst-a") (by decide)).mpr (by decide)⟩

/-- Client `c1` is in room `lobby|inst-a`; then client `room:lobby` connects on the
same instance, and `c1` is gone from that room. -/
theorem room_client_removes_field :
    (∀ id, bar ∉ (colliding (ascii "lobby") (ascii "inst-a") id).pair.2) ∧
      ∃ state after, Reachable (step (colliding (ascii "lobby") (ascii "inst-a"))) anyStep initial
          state ∧
        step (colliding (ascii "lobby") (ascii "inst-a")) state (.call true (.exec .answered)) =
          some after ∧
        fieldAt state.db state.now (ascii "room:lobby|inst-a") (ascii "c1|inst-a") =
          some ⟨ascii "inst-a", some 60000⟩ ∧
        fieldAt after.db after.now (ascii "room:lobby|inst-a") (ascii "c1|inst-a") = none := by
  refine ⟨by decide, joined (ascii "lobby") (ascii "inst-a"), _,
    joined_reachable (ascii "lobby") (ascii "inst-a"), rfl, ?_, ?_⟩
  · decide +kernel
  · decide +kernel

end Results

end ChatScale.PresenceIsolation
