import ChatScale.RedisKeyspace
import ChatScale.TransitionSystem

/-!
# The presence service

Every connection of a client on an instance has a client key, a set of its
rooms, and a field under that key in the hash of each room. The RPCs read the
client key and write one `MULTI` block. Calls of any number of requests may run
at the same time, interleaved between the read and the block of a call; a read
may fail, and a block may be refused or executed without an answer.
-/

namespace ChatScale.PresenceModel

open ChatScale.ByteText ChatScale.RedisKeyspace

set_option autoImplicit false

/-- In milliseconds. -/
def connTTL : Nat := 60000

def clientKey (clientID instanceName : Bytes) : Bytes := clientID ++ ascii "|" ++ instanceName

def roomKey (roomID : Bytes) : Bytes := ascii "room:" ++ roomID

section Blocks

variable (clientID instanceName : Bytes) (roomsId : List Bytes)

def saveRoom (room : Bytes) : List Command :=
  [.hset (roomKey room) (clientKey clientID instanceName) instanceName,
    .hexpire (roomKey room) connTTL (clientKey clientID instanceName)]

def saveRooms : List Command := roomsId.flatMap (saveRoom clientID instanceName)

def saveClient : List Command :=
  [.del (clientKey clientID instanceName), .sadd (clientKey clientID instanceName) roomsId,
    .expire (clientKey clientID instanceName) connTTL]

def connectBlock : List Command :=
  saveRooms clientID instanceName roomsId ++ saveClient clientID instanceName roomsId

def disconnectBlock : List Command :=
  .del (clientKey clientID instanceName) ::
    roomsId.map fun room => .hdel (roomKey room) (clientKey clientID instanceName)

def pingBlock : List Command :=
  saveRooms clientID instanceName roomsId ++ [.expire (clientKey clientID instanceName) connTTL]

/-- Only a `Connect` without rooms has a command with too few arguments. -/
theorem ping_complete :
    (pingBlock clientID instanceName roomsId).all Command.isComplete = true := by
  rw [List.all_eq_true]
  intro command listed
  rcases List.mem_append.mp listed with saved | refreshed
  · obtain ⟨room, _, member⟩ := List.mem_flatMap.mp saved
    simp only [saveRoom, List.mem_cons, List.not_mem_nil, or_false] at member
    rcases member with rfl | rfl <;> rfl
  · rw [List.mem_singleton.mp refreshed]
    rfl

end Blocks

section Lookup

/-- The loop of `IsConnected`: each instance name once. -/
def instanceNames (fields : List (Bytes × Bytes)) : List Bytes :=
  fields.foldl (fun names field => if field.2 ∈ names then names else names ++ [field.2]) []

/-- `iteration` is the order in which the loop meets the fields. -/
def isConnected (now : Nat) (db : Keyspace)
    (iteration : List (Bytes × Bytes) → List (Bytes × Bytes)) (roomID : Bytes) :
    Except Unit (List Bytes) :=
  (hgetall now db (roomKey roomID)).map fun fields => instanceNames (iteration fields)

theorem instance_names_loop (fields : List (Bytes × Bytes)) {names : List Bytes}
    (once : names.Nodup) :
    (fields.foldl (fun names field => if field.2 ∈ names then names else names ++ [field.2])
      names).Nodup ∧
    ∀ name, name ∈ fields.foldl
        (fun names field => if field.2 ∈ names then names else names ++ [field.2]) names ↔
      name ∈ names ∨ ∃ field ∈ fields, field.2 = name := by
  induction fields generalizing names with
  | nil => simp [once]
  | cons first rest induction =>
      rw [List.foldl_cons]
      by_cases seen : first.2 ∈ names
      · rw [if_pos seen]
        refine ⟨(induction once).1, fun name => ?_⟩
        rw [(induction once).2 name, List.exists_mem_cons_iff]
        constructor
        · exact fun found => found.imp_right .inr
        · rintro (old | rfl | later)
          · exact .inl old
          · exact .inl seen
          · exact .inr later
      · rw [if_neg seen]
        have longer : (names ++ [first.2]).Nodup := by
          rw [← List.concat_eq_append, List.nodup_concat]
          exact ⟨seen, once⟩
        refine ⟨(induction longer).1, fun name => ?_⟩
        rw [(induction longer).2 name, List.exists_mem_cons_iff, List.mem_append,
          List.mem_singleton, or_assoc, eq_comm (a := name)]

theorem instance_names_nodup (fields : List (Bytes × Bytes)) : (instanceNames fields).Nodup :=
  (instance_names_loop fields List.nodup_nil).1

theorem mem_instance_names {fields : List (Bytes × Bytes)} {name : Bytes} :
    name ∈ instanceNames fields ↔ ∃ field ∈ fields, field.2 = name := by
  rw [instanceNames, (instance_names_loop fields List.nodup_nil).2 name]
  simp only [List.not_mem_nil, false_or]

/-- The room's hash has a live field for the instance. -/
def Listed (now : Nat) (db : Keyspace) (roomID instanceName : Bytes) : Prop :=
  ∃ name field, fieldAt db now (roomKey roomID) name = some field ∧ field.value = instanceName

/-- `IsConnected` lists each instance of the room's hash once. -/
theorem is_connected_lists {now : Nat} {db : Keyspace}
    {iteration : List (Bytes × Bytes) → List (Bytes × Bytes)}
    (reordered : ∀ fields, (iteration fields).Perm fields) {roomID : Bytes} {names : List Bytes}
    (answered : isConnected now db iteration roomID = .ok names) :
    names.Nodup ∧ ∀ name, name ∈ names ↔ Listed now db roomID name := by
  unfold isConnected at answered
  cases read : hgetall now db (roomKey roomID) with
  | error => rw [read] at answered; cases answered
  | ok fields =>
      rw [read] at answered
      cases answered
      refine ⟨instance_names_nodup _, fun name => ?_⟩
      rw [mem_instance_names]
      constructor
      · rintro ⟨⟨key, value⟩, listed, rfl⟩
        obtain ⟨field, found, same⟩ := (mem_hgetall read).mp ((reordered fields).mem_iff.mp listed)
        exact ⟨key, field, found, same⟩
      · rintro ⟨key, field, found, rfl⟩
        have listed := (mem_hgetall read).mpr ⟨field, found, rfl⟩
        exact ⟨(key, field.value), (reordered fields).mem_iff.mpr listed, rfl⟩

end Lookup

section Calls

inductive Request where
  | connect (clientID instanceName : Bytes) (roomsId : List Bytes)
  | disconnect (clientID instanceName : Bytes)
  | ping (clientID instanceName : Bytes)

def Request.key : Request → Bytes
  | .connect clientID instanceName _ => clientKey clientID instanceName
  | .disconnect clientID instanceName => clientKey clientID instanceName
  | .ping clientID instanceName => clientKey clientID instanceName

def Request.pair : Request → Bytes × Bytes
  | .connect clientID instanceName _ => (clientID, instanceName)
  | .disconnect clientID instanceName => (clientID, instanceName)
  | .ping clientID instanceName => (clientID, instanceName)

/-- A block that was executed for a `Connect` or a `Disconnect`. -/
inductive Executed where
  | connected (clientID instanceName : Bytes) (roomsId : List Bytes)
  | disconnected (clientID instanceName : Bytes)
  deriving DecidableEq

def Executed.key : Executed → Bytes
  | .connected clientID instanceName _ => clientKey clientID instanceName
  | .disconnected clientID instanceName => clientKey clientID instanceName

/-- The executed blocks of a client key. -/
def blocksOf (history : List Executed) (key : Bytes) : List Executed :=
  history.filter fun block => block.key == key

/-- Where a call is. After its read it knows the rooms, whether the read
succeeded, and how many blocks of its key had been executed by then. -/
inductive CallStage where
  | idle
  | read (roomsId : List Bytes) (answered : Bool) (seen : Nat)
  | done (success : Bool)
  deriving DecidableEq

/-- How a block ends for the caller: answered, executed without an answer, or
not executed. -/
inductive Outcome where
  | answered
  | lost
  | refused

/-- `reached` says that the read got through to the server. -/
inductive Move where
  | read (reached : Bool)
  | exec (outcome : Outcome)

structure State (Call : Type) where
  db : Keyspace
  now : Nat
  calls : Call → CallStage
  history : List Executed

inductive Action (Call : Type) where
  | wait (elapsed : Nat)
  | call (id : Call) (move : Move)

def initial {Call : Type} : State Call := ⟨fun _ => none, 0, fun _ => .idle, []⟩

/-- `SMEMBERS`, or nothing after an error. -/
def readRooms (now : Nat) (db : Keyspace) (reached : Bool) (key : Bytes) : Option (List Bytes) :=
  if reached then (smembers now db key).toOption else none

variable {Call : Type} [DecidableEq Call]

def setStage (state : State Call) (id : Call) (stage : CallStage) : State Call :=
  { state with calls := Function.update state.calls id stage }

def execStep (state : State Call) (id : Call) (commands : List Command) (block : Option Executed)
    (outcome : Outcome) : State Call :=
  let result := exec state.now state.db commands
  let executed := { state with
    db := result.1
    history := if commands.all Command.isComplete then state.history ++ block.toList
      else state.history }
  match outcome with
  | .answered => setStage executed id (.done result.2)
  | .lost => setStage executed id (.done false)
  | .refused => setStage state id (.done false)

def callStep (state : State Call) (id : Call) :
    Request → CallStage → Move → Option (State Call)
  | .connect clientID instanceName roomsId, .idle, .exec outcome =>
      some (execStep state id (connectBlock clientID instanceName roomsId)
        (some (.connected clientID instanceName roomsId)) outcome)
  | .disconnect clientID instanceName, .idle, .read reached =>
      let key := clientKey clientID instanceName
      match readRooms state.now state.db reached key with
      | none => some (setStage state id (.done false))
      | some [] => some (setStage state id (.done true))
      | some roomsId =>
          some (setStage state id (.read roomsId true (blocksOf state.history key).length))
  | .disconnect clientID instanceName, .read roomsId _ _, .exec outcome =>
      some (execStep state id (disconnectBlock clientID instanceName roomsId)
        (some (.disconnected clientID instanceName)) outcome)
  | .ping clientID instanceName, .idle, .read reached =>
      let key := clientKey clientID instanceName
      let roomsId := readRooms state.now state.db reached key
      some (setStage state id
        (.read (roomsId.getD []) roomsId.isSome (blocksOf state.history key).length))
  | .ping clientID instanceName, .read roomsId _ _, .exec outcome =>
      some (execStep state id (pingBlock clientID instanceName roomsId) none outcome)
  | _, _, _ => none

def step (requests : Call → Request) (state : State Call) : Action Call → Option (State Call)
  | .wait elapsed => some { state with now := state.now + elapsed }
  | .call id move => callStep state id (requests id) (state.calls id) move

/-- `Connect` and `Disconnect` as whole calls. -/
def connect (now : Nat) (db : Keyspace) (clientID instanceName : Bytes) (roomsId : List Bytes) :
    Keyspace × Bool := exec now db (connectBlock clientID instanceName roomsId)

def disconnect (now : Nat) (db : Keyspace) (clientID instanceName : Bytes) : Keyspace × Bool :=
  match smembers now db (clientKey clientID instanceName) with
  | .error () => (db, false)
  | .ok [] => (db, true)
  | .ok roomsId => exec now db (disconnectBlock clientID instanceName roomsId)

/-- A call that nothing interrupts. Time may pass between its read and its
block. -/
def Request.run (reads now : Nat) (db : Keyspace) : Request → Keyspace × Bool
  | .connect clientID instanceName roomsId =>
      PresenceModel.connect now db clientID instanceName roomsId
  | .disconnect clientID instanceName =>
      match smembers reads db (clientKey clientID instanceName) with
      | .error () => (db, false)
      | .ok [] => (db, true)
      | .ok roomsId => exec now db (disconnectBlock clientID instanceName roomsId)
  | .ping clientID instanceName =>
      exec now db (pingBlock clientID instanceName
        ((smembers reads db (clientKey clientID instanceName)).toOption.getD []))

end Calls

section Effects

variable {now : Nat} {db : Keyspace} {clientID instanceName : Bytes} {roomsId : List Bytes}
  {key : Bytes}

theorem save_rooms_sets (command : Command)
    (listed : command ∈ saveRooms clientID instanceName roomsId) :
    command.actsOnSet key = false := by
  obtain ⟨room, _, member⟩ := List.mem_flatMap.mp listed
  simp only [saveRoom, List.mem_cons, List.not_mem_nil, or_false] at member
  rcases member with rfl | rfl <;> rfl

theorem save_rooms_set_kept :
    setAt (runAll now db (saveRooms clientID instanceName roomsId)).1 now key =
      setAt db now key :=
  run_all_set_kept save_rooms_sets

theorem connect_set (now : Nat) (db : Keyspace) (clientID instanceName : Bytes)
    (roomsId : List Bytes) :
    setAt (runAll now db (connectBlock clientID instanceName roomsId)).1 now
      (clientKey clientID instanceName) = some (roomsId.dedup, some (now + connTTL)) := by
  generalize ownIs : clientKey clientID instanceName = own
  rw [connectBlock, run_all_append]
  generalize (runAll now db (saveRooms clientID instanceName roomsId)).1 = saved
  have absent : entryAt (put saved own none) now own = none := entry_at_put none
  have added : sadd now (put saved own none) own roomsId =
      (put (put saved own none) own (some ⟨.set roomsId.dedup, none⟩), true) := by
    rw [sadd, absent]
  simp only [saveClient, ownIs, runAll, Command.run, added]
  rw [(expire_leaves now _ own connTTL).sets (expire_succeeds own connTTL), if_pos rfl,
    set_at_put_set _ rfl, Option.map_some]

theorem ping_set (now : Nat) (db : Keyspace) (clientID instanceName : Bytes)
    (roomsId : List Bytes) :
    setAt (runAll now db (pingBlock clientID instanceName roomsId)).1 now
      (clientKey clientID instanceName) =
      (setAt db now (clientKey clientID instanceName)).map
        fun old => (old.1, some (now + connTTL)) := by
  rw [pingBlock, run_all_append]
  generalize same : (runAll now db (saveRooms clientID instanceName roomsId)).1 = saved
  simp only [runAll, Command.run]
  rw [(expire_leaves now saved _ connTTL).sets (expire_succeeds _ connTTL), if_pos rfl, ← same,
    save_rooms_set_kept]

theorem disconnect_set (now : Nat) (db : Keyspace) (clientID instanceName : Bytes)
    (roomsId : List Bytes) :
    setAt (runAll now db (disconnectBlock clientID instanceName roomsId)).1 now
      (clientKey clientID instanceName) = none := by
  rw [disconnectBlock, runAll]
  dsimp only
  rw [run_all_set_kept]
  · exact ((del_leaves now db _).sets rfl _).trans (if_pos rfl)
  · intro command listed
    obtain ⟨room, _, rfl⟩ := List.mem_map.mp listed
    rfl

/-- The command leaves the client key and the fields of this name alone. -/
def Foreign (key : Bytes) (command : Command) : Prop :=
  command.actsOnSet key = false ∧ command.writesField key = false

theorem save_rooms_foreign (differ : clientKey clientID instanceName ≠ key) (command : Command)
    (listed : command ∈ saveRooms clientID instanceName roomsId) : Foreign key command := by
  refine ⟨save_rooms_sets command listed, ?_⟩
  obtain ⟨room, _, member⟩ := List.mem_flatMap.mp listed
  simp only [saveRoom, List.mem_cons, List.not_mem_nil, or_false] at member
  rcases member with rfl | rfl
  · exact beq_eq_false_iff_ne.mpr differ
  · exact beq_eq_false_iff_ne.mpr differ

theorem connect_foreign (differ : clientKey clientID instanceName ≠ key) (command : Command)
    (listed : command ∈ connectBlock clientID instanceName roomsId) : Foreign key command := by
  rcases List.mem_append.mp listed with saved | client
  · exact save_rooms_foreign differ command saved
  · have apart := beq_eq_false_iff_ne.mpr differ
    simp only [saveClient, List.mem_cons, List.not_mem_nil, or_false] at client
    rcases client with rfl | rfl | rfl
    · exact ⟨apart, rfl⟩
    · exact ⟨apart, rfl⟩
    · exact ⟨apart, rfl⟩

theorem ping_foreign (differ : clientKey clientID instanceName ≠ key) (command : Command)
    (listed : command ∈ pingBlock clientID instanceName roomsId) : Foreign key command := by
  rcases List.mem_append.mp listed with saved | refreshed
  · exact save_rooms_foreign differ command saved
  · rw [List.mem_singleton.mp refreshed]
    exact ⟨beq_eq_false_iff_ne.mpr differ, rfl⟩

theorem disconnect_foreign (differ : clientKey clientID instanceName ≠ key) (command : Command)
    (listed : command ∈ disconnectBlock clientID instanceName roomsId) : Foreign key command := by
  rcases List.mem_cons.mp listed with rfl | removed
  · exact ⟨beq_eq_false_iff_ne.mpr differ, rfl⟩
  · obtain ⟨room, _, rfl⟩ := List.mem_map.mp removed
    exact ⟨rfl, rfl⟩

theorem save_room_cases (now : Nat) (db : Keyspace) (clientID instanceName room : Bytes) :
    (runAll now db (saveRoom clientID instanceName room)).2 = true ∧
      (∀ other field, fieldAt (runAll now db (saveRoom clientID instanceName room)).1 now other
        field = if other = roomKey room ∧ field = clientKey clientID instanceName then
            some ⟨instanceName, some (now + connTTL)⟩
          else fieldAt db now other field) ∨
    (runAll now db (saveRoom clientID instanceName room)).2 = false ∧
      (runAll now db (saveRoom clientID instanceName room)).1 = db :=
  hset_hexpire now db (roomKey room) (clientKey clientID instanceName) instanceName connTTL

/-- Every field of this name in the hash of a room expires by the given time. -/
def FieldsBounded (db : Keyspace) (now : Nat) (name : Bytes) (bound : Nat) : Prop :=
  ∀ room field, fieldAt db now (roomKey room) name = some field →
    ∃ expiry, field.expiry = some expiry ∧ expiry ≤ bound

theorem save_rooms_bounded {bound : Nat} (later : now + connTTL ≤ bound)
    (bounded : FieldsBounded db now (clientKey clientID instanceName) bound) :
    FieldsBounded (runAll now db (saveRooms clientID instanceName roomsId)).1 now
      (clientKey clientID instanceName) bound := by
  induction roomsId generalizing db with
  | nil => exact bounded
  | cons room rest induction =>
      rw [saveRooms, List.flatMap_cons, run_all_append]
      apply induction
      intro other field found
      rcases save_room_cases now db clientID instanceName room with ⟨_, fields⟩ | ⟨_, same⟩
      · rw [fields] at found
        split_ifs at found
        · cases found
          exact ⟨now + connTTL, rfl, later⟩
        · exact bounded other field found
      · rw [same] at found
        exact bounded other field found

theorem room_key_injective {left right : Bytes} (same : roomKey left = roomKey right) :
    left = right := List.append_cancel_left same

/-- When no command fails, exactly the fields of the listed rooms get their full
time. -/
theorem save_rooms_fields
    (done : (runAll now db (saveRooms clientID instanceName roomsId)).2 = true) (room : Bytes) :
    fieldAt (runAll now db (saveRooms clientID instanceName roomsId)).1 now (roomKey room)
      (clientKey clientID instanceName) =
        if room ∈ roomsId then some ⟨instanceName, some (now + connTTL)⟩
        else fieldAt db now (roomKey room) (clientKey clientID instanceName) := by
  induction roomsId generalizing db with
  | nil => rfl
  | cons first rest induction =>
      rw [saveRooms, List.flatMap_cons, run_all_append, Bool.and_eq_true] at done
      rw [saveRooms, List.flatMap_cons, run_all_append]
      rcases save_room_cases now db clientID instanceName first with ⟨_, fields⟩ | ⟨failed, _⟩
      · refine (induction done.2).trans ?_
        rw [fields]
        by_cases listed : room ∈ rest
        · rw [if_pos listed, if_pos (List.mem_cons_of_mem first listed)]
        · rw [if_neg listed]
          by_cases same : room = first
          · rw [if_pos ⟨congrArg roomKey same, rfl⟩, if_pos (List.mem_cons.mpr (.inl same))]
          · rw [if_neg fun both => same (room_key_injective both.1),
              if_neg fun member => (List.mem_cons.mp member).elim same listed]
      · cases failed.symm.trans done.1

end Effects

end ChatScale.PresenceModel
