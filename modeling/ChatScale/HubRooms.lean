import ChatScale.ByteText
import ChatScale.KeyedTable

/-!
# The rooms of a hub

Rooms by their id, and in each room the connections by a key of theirs: the
client id in the message service, the client itself in the hubs of the earlier
stages. A room keeps its connections under their own keys; the hub keeps each
room under its own id and drops a room with its last connection.
-/

namespace ChatScale.HubRooms

open ChatScale.ByteText ChatScale.KeyedTable

set_option autoImplicit false

section Rooms

variable {Conn Key : Type} [DecidableEq Key] {keyOf : Conn → Key}

structure Room (keyOf : Conn → Key) where
  id : Bytes
  clients : AList fun _ : Key => Conn
  keyed : ∀ key conn, clients.lookup key = some conn → keyOf conn = key

def newRoom (id : Bytes) : Room keyOf where
  id := id
  clients := ∅
  keyed := by
    intro key conn found
    cases found

def Room.addClient (room : Room keyOf) (conn : Conn) : Room keyOf where
  id := room.id
  clients := room.clients.insert (keyOf conn) conn
  keyed := by
    intro key other found
    rw [lookup_insert_ite] at found
    split_ifs at found with same
    · cases found
      exact same.symm
    · exact room.keyed key other found

def Room.removeClient (room : Room keyOf) (client : Key) : Room keyOf where
  id := room.id
  clients := room.clients.erase client
  keyed := by
    intro key conn found
    rw [lookup_erase_ite] at found
    split_ifs at found
    exact room.keyed key conn found

def Room.isEmpty (room : Room keyOf) : Bool := room.clients.entries.isEmpty

theorem add_client_inhabited (room : Room keyOf) (conn : Conn) :
    (room.addClient conn).isEmpty = false := by
  rw [Room.isEmpty, Room.addClient, AList.entries_insert]
  rfl

theorem lookup_of_empty {room : Room keyOf} (empty : room.isEmpty = true) (key : Key) :
    room.clients.lookup key = none := by
  have none : room.clients = ∅ := AList.ext (List.isEmpty_iff.mp empty)
  rw [none, AList.lookup_empty]

end Rooms

section Hub

variable {Conn Key : Type} [DecidableEq Key] {keyOf : Conn → Key}

structure Hub (keyOf : Conn → Key) where
  rooms : AList fun _ : Bytes => Room keyOf
  named : ∀ key room, rooms.lookup key = some room → room.id = key
  inhabited : ∀ key room, rooms.lookup key = some room → room.isEmpty = false

def newHub : Hub keyOf where
  rooms := ∅
  named := by
    intro key room found
    cases found
  inhabited := by
    intro key room found
    cases found

def Hub.putRoom (hub : Hub keyOf) (room : Room keyOf) (inhabited : room.isEmpty = false) :
    Hub keyOf where
  rooms := hub.rooms.insert room.id room
  named := by
    intro key other found
    rw [lookup_insert_ite] at found
    split_ifs at found with same
    · cases found
      exact same.symm
    · exact hub.named key other found
  inhabited := by
    intro key other found
    rw [lookup_insert_ite] at found
    split_ifs at found
    · cases found
      exact inhabited
    · exact hub.inhabited key other found

def Hub.deleteRoom (hub : Hub keyOf) (roomID : Bytes) : Hub keyOf where
  rooms := hub.rooms.erase roomID
  named := by
    intro key room found
    rw [lookup_erase_ite] at found
    split_ifs at found
    exact hub.named key room found
  inhabited := by
    intro key room found
    rw [lookup_erase_ite] at found
    split_ifs at found
    exact hub.inhabited key room found

/-- One pass of the loop in `Register`. -/
def Hub.join (hub : Hub keyOf) (conn : Conn) (roomID : Bytes) : Hub keyOf :=
  let room := (hub.rooms.lookup roomID).getD (newRoom roomID)
  hub.putRoom (room.addClient conn) (add_client_inhabited room conn)

def Hub.register (hub : Hub keyOf) (roomIDs : List Bytes) (conn : Conn) : Hub keyOf :=
  roomIDs.foldl (fun hub roomID => hub.join conn roomID) hub

/-- One pass of the loop in `Unregister`. -/
def Hub.leave (hub : Hub keyOf) (client : Key) (roomID : Bytes) : Hub keyOf :=
  match hub.rooms.lookup roomID with
  | none => hub
  | some room =>
      if empty : (room.removeClient client).isEmpty then hub.deleteRoom room.id
      else hub.putRoom (room.removeClient client) (Bool.eq_false_iff.mpr empty)

def Hub.unregister (hub : Hub keyOf) (client : Key) : Hub keyOf :=
  hub.rooms.keys.foldl (fun hub roomID => hub.leave client roomID) hub

/-- The entry `hub.rooms[roomID].clients[client]`. -/
def Hub.clientAt (hub : Hub keyOf) (roomID : Bytes) (client : Key) : Option Conn :=
  (hub.rooms.lookup roomID).bind fun room => room.clients.lookup client

/-- The connections of a room, in the order of the table. -/
def Hub.members (hub : Hub keyOf) (roomID : Bytes) : Option (List Conn) :=
  (hub.rooms.lookup roomID).map fun room => room.clients.entries.map Sigma.snd

end Hub

section Lookups

variable {Conn Key : Type} [DecidableEq Key] {keyOf : Conn → Key} (hub : Hub keyOf)

theorem client_at_key {roomID : Bytes} {client : Key} {conn : Conn}
    (found : hub.clientAt roomID client = some conn) : keyOf conn = client := by
  obtain ⟨room, _, listed⟩ := Option.bind_eq_some_iff.mp found
  exact room.keyed client conn listed

theorem client_at_put (room : Room keyOf) (inhabited : room.isEmpty = false)
    (roomID : Bytes) (client : Key) :
    (hub.putRoom room inhabited).clientAt roomID client =
      if roomID = room.id then room.clients.lookup client else hub.clientAt roomID client := by
  rw [Hub.clientAt, Hub.putRoom, lookup_insert_ite]
  split_ifs
  · rfl
  · rfl

theorem client_at_join (conn : Conn) (joined roomID : Bytes) (client : Key) :
    (hub.join conn joined).clientAt roomID client =
      if roomID = joined ∧ client = keyOf conn then some conn
      else hub.clientAt roomID client := by
  have same : ((hub.rooms.lookup joined).getD (newRoom joined)).id = joined := by
    cases known : hub.rooms.lookup joined with
    | none => rfl
    | some room => exact hub.named joined room known
  have before : ((hub.rooms.lookup joined).getD (newRoom joined)).clients.lookup client =
      hub.clientAt joined client := by
    rw [Hub.clientAt]
    cases hub.rooms.lookup joined with
    | none => rfl
    | some room => rfl
  rw [Hub.join, client_at_put]
  simp only [Room.addClient, same, lookup_insert_ite, before]
  by_cases room : roomID = joined
  · subst room
    simp only [true_and, if_true]
  · simp only [room, false_and, if_false]

theorem client_at_leave (leaver : Key) (left roomID : Bytes) (client : Key) :
    (hub.leave leaver left).clientAt roomID client =
      if roomID = left ∧ client = leaver then none else hub.clientAt roomID client := by
  rw [Hub.leave.eq_def]
  split
  · rename_i absent
    by_cases gone : roomID = left ∧ client = leaver
    · rw [if_pos gone, gone.1, Hub.clientAt, absent]
      rfl
    · rw [if_neg gone]
  · rename_i room found
    have named := hub.named left room found
    have kept : (room.removeClient leaver).id = left := named
    have removed : (room.removeClient leaver).clients.lookup client =
        if client = leaver then none else hub.clientAt left client := by
      rw [Room.removeClient, lookup_erase_ite, Hub.clientAt, found]
      rfl
    have after : (if empty : (room.removeClient leaver).isEmpty then hub.deleteRoom room.id
        else hub.putRoom (room.removeClient leaver) (Bool.eq_false_iff.mpr empty)).clientAt
          roomID client =
        if roomID = left then (room.removeClient leaver).clients.lookup client
        else hub.clientAt roomID client := by
      split_ifs with empty same same
      · rw [lookup_of_empty empty, Hub.clientAt, Hub.deleteRoom, lookup_erase_ite, named,
          if_pos same]
        rfl
      · rw [Hub.clientAt, Hub.deleteRoom, lookup_erase_ite, named, if_neg same]
        rfl
      · rw [client_at_put, kept, if_pos same]
      · rw [client_at_put, kept, if_neg same]
    rw [after, removed]
    by_cases same : roomID = left
    · subst same
      simp only [true_and, if_true]
    · simp only [same, false_and, if_false]

/-- A loop over rooms whose every pass sets one client's place in its room. -/
theorem client_at_passes {pass : Hub keyOf → Bytes → Hub keyOf} {key : Key}
    {value : Option Conn}
    (one : ∀ hub visited roomID client, (pass hub visited).clientAt roomID client =
      if roomID = visited ∧ client = key then value else hub.clientAt roomID client)
    (roomIDs : List Bytes) (roomID : Bytes) (client : Key) :
    (roomIDs.foldl pass hub).clientAt roomID client =
      if roomID ∈ roomIDs ∧ client = key then value else hub.clientAt roomID client := by
  induction roomIDs generalizing hub with
  | nil => simp only [List.foldl_nil, List.not_mem_nil, false_and, if_false]
  | cons first rest induction =>
      rw [List.foldl_cons, induction, one]
      by_cases same : client = key
      · by_cases later : roomID ∈ rest
        · simp only [later, same, List.mem_cons, or_true, and_self, if_true]
        · simp only [later, same, List.mem_cons, or_false, and_true, if_false]
      · simp only [same, and_false, if_false]

theorem client_at_register (roomIDs : List Bytes) (conn : Conn) (roomID : Bytes) (client : Key) :
    (hub.register roomIDs conn).clientAt roomID client =
      if roomID ∈ roomIDs ∧ client = keyOf conn then some conn
      else hub.clientAt roomID client :=
  client_at_passes hub (fun hub => client_at_join hub conn) roomIDs roomID client

theorem client_at_unregister (leaver : Key) (roomID : Bytes) (client : Key) :
    (hub.unregister leaver).clientAt roomID client =
      if client = leaver then none else hub.clientAt roomID client := by
  rw [Hub.unregister, client_at_passes hub (fun hub => client_at_leave hub leaver)]
  by_cases known : roomID ∈ hub.rooms.keys
  · simp only [known, true_and]
  · -- A room the loop does not visit has no connections.
    have absent : hub.clientAt roomID client = none := by
      rw [Hub.clientAt, AList.lookup_eq_none.mpr known]
      rfl
    simp only [known, false_and, absent, ite_self]

theorem mem_members {roomID : Bytes} {conns : List Conn} (found : hub.members roomID = some conns)
    (conn : Conn) : conn ∈ conns ↔ hub.clientAt roomID (keyOf conn) = some conn := by
  obtain ⟨room, known, rfl⟩ := Option.map_eq_some_iff.mp found
  rw [Hub.clientAt, known, Option.bind_some]
  constructor
  · intro member
    obtain ⟨⟨key, other⟩, listed, rfl⟩ := List.mem_map.mp member
    have stored : room.clients.lookup key = some other := AList.mem_lookup_iff.mpr listed
    rw [room.keyed key other stored]
    exact stored
  · intro stored
    exact List.mem_map.mpr ⟨⟨keyOf conn, conn⟩, AList.mem_lookup_iff.mp stored, rfl⟩

theorem members_nodup {roomID : Bytes} {conns : List Conn}
    (found : hub.members roomID = some conns) : conns.Nodup := by
  obtain ⟨room, _, rfl⟩ := Option.map_eq_some_iff.mp found
  have keys : (room.clients.entries.map Sigma.fst).Nodup := room.clients.keys_nodup
  have sameKeys : room.clients.entries.map Sigma.fst =
      (room.clients.entries.map Sigma.snd).map keyOf := by
    rw [List.map_map]
    apply List.map_congr_left
    intro entry listed
    exact (room.keyed entry.1 entry.2 (AList.mem_lookup_iff.mpr listed)).symm
  rw [sameKeys] at keys
  exact List.Nodup.of_map _ keys

theorem members_inhabited {roomID : Bytes} {conns : List Conn}
    (found : hub.members roomID = some conns) : conns ≠ [] := by
  rcases Option.map_eq_some_iff.mp found with ⟨room, known, rfl⟩
  have some := hub.inhabited roomID room known
  rw [Room.isEmpty, List.isEmpty_eq_false_iff] at some
  intro none
  exact some (List.map_eq_nil_iff.mp none)

theorem members_join (conn : Conn) (joined roomID : Bytes) :
    ((hub.join conn joined).members roomID).isSome = true ↔
      roomID = joined ∨ (hub.members roomID).isSome = true := by
  have same : ((hub.rooms.lookup joined).getD (newRoom joined)).id = joined := by
    cases known : hub.rooms.lookup joined with
    | none => rfl
    | some room => exact hub.named joined room known
  simp only [Hub.members, Hub.join, Hub.putRoom, Room.addClient, same, lookup_insert_ite,
    Option.isSome_map]
  by_cases here : roomID = joined
  · rw [if_pos here]
    exact iff_of_true rfl (.inl here)
  · rw [if_neg here]
    exact (or_iff_right here).symm

theorem members_leave_other (leaver : Key) {left roomID : Bytes} (differ : roomID ≠ left) :
    (hub.leave leaver left).members roomID = hub.members roomID := by
  rw [Hub.leave.eq_def]
  split
  · rfl
  · rename_i room found
    have named := hub.named left room found
    have kept : (room.removeClient leaver).id = left := named
    split_ifs
    · rw [Hub.members, Hub.deleteRoom, lookup_erase_ite, named, if_neg differ, ← Hub.members]
    · rw [Hub.members, Hub.putRoom, lookup_insert_ite, kept, if_neg differ, ← Hub.members]

end Lookups

end ChatScale.HubRooms
