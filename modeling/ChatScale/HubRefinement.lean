import Mathlib.Data.Set.Finite.Lattice
import Mathlib.Data.Set.Finite.List
import ChatScale.LiveHubModel

/-!
# The hub as a map

`Register`, `Unregister` and `Dispatch` of the message service's hub as whole
calls, one after the other. Two loops of the hub run over a Go map, in an order
that is different each time; `Unregister` deletes rooms while it goes. Seen from
outside, the hub is a finite map from a room and a client to a connection, and a
`Dispatch` adds one frame for each connection that the map has in the room.
-/

namespace ChatScale.HubRefinement

open ChatScale.ByteText ChatScale.MessageContract ChatScale.HubRooms ChatScale.LiveHubModel

set_option autoImplicit false

/-- An order in which a loop meets the elements of a map. -/
structure Order (α : Type) where
  arrange : List α → List α
  perm : ∀ elements, (arrange elements).Perm elements

inductive HubError where
  | nilConnection
  | invalid (message : String)
  | marshal
  | noRoom (roomID : Bytes)
  deriving DecidableEq

/-- `conn` is nil or a connection. -/
inductive HubCall (Conn : Type) where
  | register (roomIDs : List Bytes) (conn : Option Conn)
  | unregister (clientID : Bytes) (rooms : Order Bytes)
  | dispatch (event : Event) (clients : Order Conn)

section Calls

variable {Conn : Type} {clientID : Conn → Bytes}

/-- The hub, and what has been put on the `Send` of each connection. -/
structure HubState (clientID : Conn → Bytes) where
  hub : Hub clientID
  sent : Conn → List Bytes

def newState : HubState clientID := ⟨newHub, fun _ => []⟩

/-- The loop of `Unregister`. -/
def leaveAll (hub : Hub clientID) (client : Bytes) (rooms : Order Bytes) : Hub clientID :=
  (rooms.arrange hub.rooms.keys).foldl (fun hub roomID => hub.leave client roomID) hub

variable [DecidableEq Conn]

/-- One pass of the loop in `Dispatch`. -/
def push (frame : Bytes) (sent : Conn → List Bytes) (conn : Conn) : Conn → List Bytes :=
  Function.update sent conn (sent conn ++ [frame])

def register (state : HubState clientID) (roomIDs : List Bytes) :
    Option Conn → HubState clientID × Except HubError Unit
  | none => (state, .error .nilConnection)
  | some conn => ({ state with hub := state.hub.register roomIDs conn }, .ok ())

def unregister (state : HubState clientID) (client : Bytes) (rooms : Order Bytes) :
    HubState clientID × Except HubError Unit :=
  ({ state with hub := leaveAll state.hub client rooms }, .ok ())

/-- No `Send` is full and the context is not cancelled. -/
def dispatch (state : HubState clientID) (event : Event) (clients : Order Conn) :
    HubState clientID × Except HubError Unit :=
  match event.validate with
  | .error message => (state, .error (.invalid message))
  | .ok () =>
      match event.marshal with
      | none => (state, .error .marshal)
      | some serialized =>
          match state.hub.members event.roomID with
          | none => (state, .error (.noRoom event.roomID))
          | some conns =>
              ({ state with sent := (clients.arrange conns).foldl (push serialized) state.sent },
                .ok ())

def serve (state : HubState clientID) : HubCall Conn → HubState clientID × Except HubError Unit
  | .register roomIDs conn => register state roomIDs conn
  | .unregister client rooms => unregister state client rooms
  | .dispatch event clients => dispatch state event clients

def serveAll (calls : List (HubCall Conn)) : HubState clientID :=
  calls.foldl (fun state call => (serve state call).1) newState

end Calls

section Registry

variable {Conn : Type}

/-- The connection of a client in a room. -/
abbrev Registry (Conn : Type) := Bytes → Bytes → Option Conn

variable (clientID : Conn → Bytes)

/-- What a call means for the map. -/
def record (registry : Registry Conn) : HubCall Conn → Registry Conn
  | .register roomIDs (some conn) => fun roomID client =>
      if roomIDs.contains roomID ∧ client = clientID conn then some conn
      else registry roomID client
  | .register _ none => registry
  | .unregister leaver _ => fun roomID client =>
      if client = leaver then none else registry roomID client
  | .dispatch _ _ => registry

def recordAll (calls : List (HubCall Conn)) : Registry Conn :=
  calls.foldl (record clientID) fun _ _ => none

/-- What a call means for the `Send` of a connection. -/
def delivered [DecidableEq Conn] (registry : Registry Conn) (conn : Conn) :
    HubCall Conn → List Bytes
  | .dispatch event _ =>
      if registry event.roomID (clientID conn) = some conn then (dispatchFrame event).toList
      else []
  | _ => []

/-- The frames of a connection, call by call. -/
def deliveredAll [DecidableEq Conn] (conn : Conn) :
    Registry Conn → List (HubCall Conn) → List Bytes
  | _, [] => []
  | registry, call :: calls =>
      delivered clientID registry conn call ++
        deliveredAll conn (record clientID registry call) calls

end Registry

section Steps

variable {Conn : Type} {clientID : Conn → Bytes}

theorem client_at_leave_all (hub : Hub clientID) (leaver : Bytes) (rooms : Order Bytes)
    (roomID client : Bytes) :
    (leaveAll hub leaver rooms).clientAt roomID client =
      if client = leaver then none else hub.clientAt roomID client := by
  rw [leaveAll, client_at_passes hub (fun hub => client_at_leave hub leaver)]
  simp only [(rooms.perm hub.rooms.keys).mem_iff]
  by_cases known : roomID ∈ hub.rooms.keys
  · simp only [known, true_and]
  · have absent : hub.clientAt roomID client = none := by
      rw [Hub.clientAt, AList.lookup_eq_none.mpr known]
      rfl
    simp only [known, false_and, absent, ite_self]

/-- A room is there exactly if the map has a connection in it. -/
theorem members_none_iff (hub : Hub clientID) (roomID : Bytes) :
    hub.members roomID = none ↔ ∀ client, hub.clientAt roomID client = none := by
  constructor
  · intro absent client
    rw [Hub.members, Option.map_eq_none_iff] at absent
    rw [Hub.clientAt, absent]
    rfl
  · intro empty
    cases found : hub.members roomID with
    | none => rfl
    | some conns =>
        obtain ⟨conn, listed⟩ := List.exists_mem_of_ne_nil _ (members_inhabited hub found)
        have present := (mem_members hub found conn).mp listed
        rw [empty] at present
        cases present

theorem client_at_finite (hub : Hub clientID) :
    { place : Bytes × Bytes | hub.clientAt place.1 place.2 ≠ none }.Finite := by
  let places := hub.rooms.entries.flatMap fun entry =>
    entry.2.clients.keys.map fun client => (entry.1, client)
  apply (List.finite_toSet places).subset
  intro place present
  obtain ⟨conn, found⟩ := Option.ne_none_iff_exists'.mp present
  obtain ⟨room, known, listed⟩ := Option.bind_eq_some_iff.mp found
  have client : place.2 ∈ room.clients.keys :=
    AList.mem_keys.mp (AList.lookup_isSome.mp (by rw [listed]; rfl))
  exact List.mem_flatMap.mpr ⟨⟨place.1, room⟩, AList.mem_lookup_iff.mp known,
    List.mem_map.mpr ⟨place.2, client, rfl⟩⟩

variable [DecidableEq Conn]

theorem push_all {frame : Bytes} {sent : Conn → List Bytes} {conns : List Conn}
    (once : conns.Nodup) (conn : Conn) :
    conns.foldl (push frame) sent conn = sent conn ++ if conn ∈ conns then [frame] else [] := by
  induction conns generalizing sent with
  | nil => simp
  | cons first rest induction =>
      rw [List.nodup_cons] at once
      rw [List.foldl_cons, induction once.2]
      by_cases same : conn = first
      · subst same
        simp [push, once.1]
      · simp [push, same]

variable (state : HubState clientID)

theorem dispatch_frame_ok {event : Event} (valid : event.validate = .ok ())
    (encodes : event.createdAt.encodes = true) :
    ∃ frame, event.marshal = some frame ∧ dispatchFrame event = some frame := by
  obtain ⟨frame, marshalled⟩ := marshal_of_valid (event_validate_ok.mp valid).2.2.2.2.2.2 encodes
  exact ⟨frame, marshalled, by rw [dispatchFrame, valid]; exact marshalled⟩

/-- Why `Dispatch` fails: the event is not valid, its time has no JSON text, or
its room has no connection. -/
def Refused (registry : Registry Conn) (event : Event) : Prop :=
  event.validate ≠ .ok () ∨ event.createdAt.encodes = false ∨
    ∀ client, registry event.roomID client = none

/-- What `Dispatch` does, in terms of the map: it fails and does nothing, or each
connection of the room gets the frame. -/
theorem dispatch_cases (event : Event) (clients : Order Conn) :
    (Refused state.hub.clientAt event ∧
      ∃ error, dispatch state event clients = (state, .error error)) ∨
    ((event.validate = .ok () ∧ event.createdAt.encodes = true ∧
        ∃ client, state.hub.clientAt event.roomID client ≠ none) ∧
      ∃ sent, dispatch state event clients = ({ state with sent := sent }, .ok ()) ∧
        ∀ conn, sent conn = state.sent conn ++
          if state.hub.clientAt event.roomID (clientID conn) = some conn then
            (dispatchFrame event).toList
          else []) := by
  rw [dispatch]
  cases valid : event.validate with
  | error message =>
      left
      refine ⟨.inl ?_, _, rfl⟩
      rw [valid]
      intro ok
      cases ok
  | ok _ =>
      cases encodes : event.createdAt.encodes with
      | false =>
          left
          rw [marshal_none encodes]
          exact ⟨.inr (.inl encodes), _, rfl⟩
      | true =>
          obtain ⟨frame, marshalled, framed⟩ := dispatch_frame_ok valid encodes
          rw [marshalled]
          cases found : state.hub.members event.roomID with
          | none =>
              left
              exact ⟨.inr (.inr ((members_none_iff state.hub event.roomID).mp found)), _, rfl⟩
          | some conns =>
              right
              obtain ⟨conn, listed⟩ :=
                List.exists_mem_of_ne_nil _ (members_inhabited state.hub found)
              have present := (mem_members state.hub found conn).mp listed
              refine ⟨⟨rfl, rfl, clientID conn, by rw [present]; exact Option.some_ne_none _⟩, _,
                rfl, ?_⟩
              intro other
              have order := clients.perm conns
              rw [push_all (order.nodup_iff.mpr (members_nodup state.hub found)), framed]
              simp only [order.mem_iff, mem_members state.hub found, Option.toList_some]

/-- One call does to the hub what it means for the map. -/
theorem serve_registry (call : HubCall Conn) :
    (serve state call).1.hub.clientAt = record clientID state.hub.clientAt call := by
  cases call with
  | register roomIDs conn =>
      cases conn with
      | none => rfl
      | some conn =>
          funext roomID client
          simp only [record, List.contains_iff_mem]
          exact client_at_register state.hub roomIDs conn roomID client
  | unregister leaver rooms =>
      funext roomID client
      exact client_at_leave_all state.hub leaver rooms roomID client
  | dispatch event clients =>
      rcases dispatch_cases state event clients with
        ⟨_, _, failed⟩ | ⟨_, _, succeeded, _⟩
      · rw [serve, failed]
        rfl
      · rw [serve, succeeded]
        rfl

theorem serve_sent (call : HubCall Conn) (conn : Conn) :
    (serve state call).1.sent conn =
      state.sent conn ++ delivered clientID state.hub.clientAt conn call := by
  cases call with
  | register roomIDs joined =>
      cases joined with
      | none => exact (List.append_nil _).symm
      | some joined => exact (List.append_nil _).symm
  | unregister leaver rooms => exact (List.append_nil _).symm
  | dispatch event clients =>
      rcases dispatch_cases state event clients with
        ⟨reason, _, failed⟩ | ⟨_, _, succeeded, sent⟩
      · rw [serve, failed, delivered]
        rcases reason with invalid | unspelled | empty
        · have none : dispatchFrame event = none := by
            rw [dispatchFrame]
            split
            · rfl
            · rename_i ok
              exact absurd ok invalid
          rw [none, Option.toList_none, ite_self, List.append_nil]
        · have none : dispatchFrame event = none := by
            rw [dispatchFrame]
            split
            · rfl
            · exact marshal_none unspelled
          rw [none, Option.toList_none, ite_self, List.append_nil]
        · rw [empty, if_neg (by simp), List.append_nil]
      · rw [serve, succeeded]
        exact sent conn

end Steps

section Results

variable {Conn : Type} [DecidableEq Conn]

theorem serve_all_registry (clientID : Conn → Bytes) (calls : List (HubCall Conn)) :
    (serveAll calls : HubState clientID).hub.clientAt = recordAll clientID calls := by
  have from_any (state : HubState clientID) :
      (calls.foldl (fun state call => (serve state call).1) state).hub.clientAt =
        calls.foldl (record clientID) state.hub.clientAt := by
    induction calls generalizing state with
    | nil => rfl
    | cons call calls induction =>
        rw [List.foldl_cons, List.foldl_cons, induction, serve_registry]
  exact from_any newState

theorem serve_all_sent (clientID : Conn → Bytes) (calls : List (HubCall Conn)) (conn : Conn) :
    (serveAll calls : HubState clientID).sent conn =
      deliveredAll clientID conn (fun _ _ => none) calls := by
  have from_any (state : HubState clientID) :
      (calls.foldl (fun state call => (serve state call).1) state).sent conn =
        state.sent conn ++ deliveredAll clientID conn state.hub.clientAt calls := by
    induction calls generalizing state with
    | nil => exact (List.append_nil _).symm
    | cons call calls induction =>
        rw [List.foldl_cons, induction, serve_sent, serve_registry, deliveredAll,
          List.append_assoc]
  exact from_any newState

/-- For every sequence of calls and all orders of the loops: the hub is the map
that the calls describe, with finitely many places, every room is under its own
id and has a connection, every connection is under its own client id. What is on
a `Send` are the frames of the dispatches, in their order, each once if the map
had the connection in the room. A further `Dispatch` fails exactly if its event
is not valid, the time of the event has no JSON text or the room has no
connection, and then sends nothing. -/
theorem hub_refines_map (clientID : Conn → Bytes) (calls : List (HubCall Conn)) :
    let state : HubState clientID := serveAll calls
    state.hub.clientAt = recordAll clientID calls ∧
    { place : Bytes × Bytes | recordAll clientID calls place.1 place.2 ≠ none }.Finite ∧
    (∀ roomID room, state.hub.rooms.lookup roomID = some room →
      room.id = roomID ∧ room.clients.entries ≠ [] ∧
        ∀ client conn, room.clients.lookup client = some conn → clientID conn = client) ∧
    (∀ conn, state.sent conn = deliveredAll clientID conn (fun _ _ => none) calls) ∧
    ∀ event clients,
      let result := dispatch state event clients
      ((∃ error, result.2 = .error error) ↔ event.validate ≠ .ok () ∨
        event.createdAt.encodes = false ∨
        ∀ client, recordAll clientID calls event.roomID client = none) ∧
      ((∃ error, result.2 = .error error) → result.1 = state) ∧
      (result.2 = .ok () → ∃ frame, event.marshal = some frame ∧ ∀ conn,
        result.1.sent conn = state.sent conn ++
          if recordAll clientID calls event.roomID (clientID conn) = some conn then [frame]
          else []) := by
  have same := serve_all_registry clientID calls
  refine ⟨same, ?_, ?_, serve_all_sent clientID calls, ?_⟩
  · rw [← same]
    exact client_at_finite _
  · intro roomID room known
    refine ⟨Hub.named _ roomID room known, ?_, room.keyed⟩
    exact List.isEmpty_eq_false_iff.mp (Hub.inhabited _ roomID room known)
  · intro event clients
    rw [← same]
    rcases dispatch_cases (serveAll calls) event clients with
      ⟨reason, error, failed⟩ | ⟨⟨valid, encodes, client, present⟩, sent, succeeded, appended⟩
    · rw [failed]
      refine ⟨iff_of_true ⟨error, rfl⟩ reason, fun _ => rfl, ?_⟩
      intro ok
      cases ok
    · rw [succeeded]
      refine ⟨iff_of_false ?_ ?_, ?_, fun _ => ?_⟩
      · rintro ⟨error, wrong⟩
        cases wrong
      · rintro (invalid | unspelled | empty)
        · exact invalid valid
        · cases encodes.symm.trans unspelled
        · exact present (empty client)
      · rintro ⟨error, wrong⟩
        cases wrong
      · obtain ⟨frame, marshalled, framed⟩ := dispatch_frame_ok valid encodes
        rw [framed] at appended
        exact ⟨frame, marshalled, appended⟩

/-- An event as it is decoded from a text with "+24:00" at its time. -/
def dayAhead : Event :=
  ⟨1, ascii "m-1", ascii "k-1", ascii "lobby", 1,
    CivilTime.aheadTime, ascii "1"⟩

def joined : List (HubCall Unit) := [.register [ascii "lobby"] (some ())]

/-- The event is valid and the room has a connection, and `Dispatch` fails. -/
theorem valid_event_refused :
    dayAhead.validate = .ok () ∧
      recordAll (fun _ => ascii "ann") joined dayAhead.roomID (ascii "ann") = some () ∧
      (dispatch (serveAll joined : HubState fun _ : Unit => ascii "ann") dayAhead
        ⟨id, fun _ => .refl _⟩).2 = .error .marshal := by
  decide +kernel

end Results

end ChatScale.HubRefinement
